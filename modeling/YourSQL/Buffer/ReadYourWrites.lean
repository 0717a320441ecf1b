import YourSQL.Buffer.PoolRun

/-! # The pool and its disk as one map of pages

A page is what its frame holds, or what the disk holds while it has no frame. No call
changes this map, and a write of a client changes it at one page.
-/

namespace YourSQL

namespace BufferManager

/-- Pool and disk together hold `content`, and what `NewPage` will hand out is blank. -/
structure Holds (m : BufferManager) (content : Nat → PageBytes) : Prop where
  cached : ∀ id frame, m.bufferPages id = some frame →
    (m.frames frame).id = id ∧ (m.frames frame).data = content id ∧
      ((m.frames frame).isDirty = false → m.disk id = content id)
  stored : ∀ id, m.bufferPages id = none → m.disk id = content id
  freeClean : ∀ frame ∈ m.freePages, (m.frames frame).isDirty = false
  blank : ∀ id, m.nextPageId ≤ id → m.disk id = zeroPage

variable {m : BufferManager} {held : Nat → Nat} {content : Nat → PageBytes} {id frame : Nat}

theorem holds_create {disk : Nat → PageBytes} (maxPages : Nat) (frames : Nat → PageBytes)
    {nextPageId : Nat} (blank : ∀ id, nextPageId ≤ id → disk id = zeroPage) :
    (create disk maxPages frames nextPageId).Holds disk where
  cached := by simp [create]
  stored _ _ := rfl
  freeClean _ _ := rfl
  blank := blank

theorem Holds.pin (holds : m.Holds content) (frame : Nat) : (m.pin frame).Holds content :=
  ⟨holds.cached, holds.stored, holds.freeClean, holds.blank⟩

theorem Holds.touch (holds : m.Holds content) (frame : Nat) :
    ({ m with lruManager := m.lruManager.touch frame } : BufferManager).Holds content :=
  ⟨holds.cached, holds.stored, holds.freeClean, holds.blank⟩

/-- `FetchPage` writes an id into a frame that has it already. -/
theorem Holds.setPageId (holds : m.Holds content) (found : m.bufferPages id = some frame) :
    m.setPageId frame id = m := by
  have same : { m.frames frame with id := id } = m.frames frame := by
    rw [← (holds.cached id frame found).1]
  rw [BufferManager.setPageId, setFrame, same, Function.update_eq_self]

/-- A dirty page that is written keeps its content. -/
theorem Holds.clean (holds : m.Holds content) (inv : m.Inv held)
    (found : m.bufferPages id = some frame) : (m.clean frame).Holds content := by
  obtain ⟨ownId, ownData, -⟩ := holds.cached id frame found
  unfold BufferManager.clean
  by_cases dirty : (m.frames frame).isDirty
  · rw [if_pos dirty]
    simp only [writeFrame, setDirty, setFrame, ownId]
    refine
      { cached := ?_
        stored := ?_
        freeClean := ?_
        blank := ?_ } <;> simp only
    · intro id' frame' found'
      by_cases same : frame' = frame
      · subst same
        obtain rfl := inv.unaliased id' id frame' found' found
        simp [ownData]
      · have ne : id' ≠ id := by
          rintro rfl
          exact same (Option.some.inj (found'.symm.trans found))
        simpa [same, ne] using holds.cached id' frame' found'
    · intro id' absent
      have ne : id' ≠ id := by
        rintro rfl
        rw [found] at absent
        cases absent
      simpa [ne] using holds.stored id' absent
    · intro frame' free
      have ne : frame' ≠ frame := by
        rintro rfl
        exact inv.notFree found free
      simpa [ne] using holds.freeClean frame' free
    · intro id' later
      have ne : id' ≠ id := by
        rintro rfl
        have := inv.known id' (by simp [found])
        omega
      simpa [ne] using holds.blank id' later
  · rwa [if_neg dirty]

theorem isDirty_clean (m : BufferManager) (frame : Nat) :
    ((m.clean frame).frames frame).isDirty = false := by
  unfold clean
  by_cases dirty : (m.frames frame).isDirty
  · simp [dirty, setDirty, setFrame]
  · simp [dirty]

/-- A clean page can lose its frame. -/
theorem Holds.vacate (holds : m.Holds content) (found : m.bufferPages id = some frame)
    (clean : (m.frames frame).isDirty = false) : (m.vacate frame id).Holds content := by
  have onDisk := (holds.cached id frame found).2.2 clean
  unfold BufferManager.vacate
  simp only
  split
  · refine
      { cached := ?_
        stored := ?_
        freeClean := ?_
        blank := holds.blank } <;> simp only
    · intro id' frame' found'
      have ne : id' ≠ id := by
        rintro rfl
        rw [Function.update_self] at found'
        cases found'
      rw [Function.update_of_ne ne] at found'
      exact holds.cached id' frame' found'
    · intro id' absent
      by_cases same : id' = id
      · rw [same, onDisk]
      · rw [Function.update_of_ne same] at absent
        exact holds.stored id' absent
    · intro frame' free
      rcases List.mem_cons.mp free with rfl | old
      · exact clean
      · exact holds.freeClean frame' old
  · exact ⟨holds.cached, holds.stored, holds.freeClean, holds.blank⟩

/-- A page gets a free frame, with its content in it. -/
theorem Holds.occupy (holds : m.Holds content) (inv : m.Inv held)
    (last : m.freePages.getLast? = some frame) (absent : m.bufferPages id = none)
    {nextPageId : Nat} (later : m.nextPageId ≤ nextPageId) :
    ((m.setFrame frame { isDirty := false, id := id, data := content id }).occupy frame id
      nextPageId).Holds content := by
  have free : frame ∈ m.freePages := List.mem_of_getLast? last
  refine
    { cached := ?_
      stored := ?_
      freeClean := ?_
      blank := ?_ } <;> simp only [BufferManager.occupy, setFrame]
  · intro id' frame' found
    by_cases same : id' = id
    · subst same
      rw [Function.update_self] at found
      obtain rfl := Option.some.inj found
      simpa using holds.stored id' absent
    · rw [Function.update_of_ne same] at found
      have ne : frame' ≠ frame := by
        rintro rfl
        exact inv.notFree found free
      simpa [ne] using holds.cached id' frame' found
  · intro id' absent'
    have ne : id' ≠ id := by
      rintro rfl
      rw [Function.update_self] at absent'
      cases absent'
    rw [Function.update_of_ne ne] at absent'
    exact holds.stored id' absent'
  · intro frame' free'
    by_cases same : frame' = frame
    · simp [same]
    · simpa [same] using holds.freeClean frame' (List.dropLast_subset _ free')
  · intro id' blank
    exact holds.blank id' (Nat.le_trans later blank)

/-- What is read into a free frame is the content of the page. -/
theorem Holds.load (holds : m.Holds content) (last : m.freePages.getLast? = some frame)
    (absent : m.bufferPages id = none) :
    m.load frame id = m.setFrame frame { isDirty := false, id := id, data := content id } := by
  have clean := holds.freeClean frame (List.mem_of_getLast? last)
  simp only [BufferManager.load, writeIfDirty, clean, Bool.false_eq_true, if_false, readFrame,
    BufferManager.setPageId, setFrame, Function.update_self, Function.update_idem,
    holds.stored id absent]

theorem Holds.reset (holds : m.Holds content) (last : m.freePages.getLast? = some frame) :
    m.reset frame =
      m.setFrame frame { isDirty := false, id := m.nextPageId, data := zeroPage } := by
  have clean := holds.freeClean frame (List.mem_of_getLast? last)
  simp [BufferManager.reset, writeIfDirty, clean]

/-- A client changes the page it has. -/
theorem Holds.write (holds : m.Holds content) (inv : m.Inv held)
    (found : m.bufferPages id = some frame) (data : PageBytes) :
    (m.setFrame frame { m.frames frame with isDirty := true, data := data }).Holds
      (Function.update content id data) := by
  have ownId := (holds.cached id frame found).1
  refine
    { cached := ?_
      stored := ?_
      freeClean := ?_
      blank := holds.blank } <;> simp only [setFrame]
  · intro id' frame' found'
    by_cases same : frame' = frame
    · subst same
      obtain rfl := inv.unaliased id' id frame' found' found
      simp [ownId]
    · have ne : id' ≠ id := by
        rintro rfl
        exact same (Option.some.inj (found'.symm.trans found))
      simpa [same, ne] using holds.cached id' frame' found'
  · intro id' absent
    have ne : id' ≠ id := by
      rintro rfl
      rw [found] at absent
      cases absent
    simpa [ne] using holds.stored id' absent
  · intro frame' free
    have ne : frame' ≠ frame := by
      rintro rfl
      exact inv.notFree found free
    simpa [ne] using holds.freeClean frame' free

/-- A page that has just been made is blank. -/
theorem Holds.update_blank (holds : m.Holds content) (absent : m.bufferPages id = none)
    (later : m.nextPageId ≤ id) : Function.update content id zeroPage = content := by
  rw [Function.update_eq_self_iff, ← holds.stored id absent, holds.blank id later]

end BufferManager

namespace PoolRun

open BufferManager

variable {run run' : PoolRun} {id frame : Nat}

/-- The map of pages that the clients see is `lastWritten`. -/
def Simulates (run : PoolRun) : Prop := run.pool.Holds run.lastWritten

theorem Simulates.fetchPage (holds : Simulates run) (inv : Inv run)
    (taken : run.step (.fetchPage id) = some run') : Simulates run' := by
  simp only [step] at taken
  split at taken
  · cases found : run.pool.bufferPages id with
    | some frame =>
        rw [run_fetchPage_mapped found, (Holds.pin holds frame).setPageId found] at taken
        obtain rfl := Option.some.inj taken
        exact Holds.pin holds frame
    | none =>
        cases last : run.pool.freePages.getLast? with
        | none =>
            have full := List.getLast?_eq_none_iff.mp last
            rw [run_fetchPage_full inv.pool found full] at taken
            obtain rfl := Option.some.inj taken
            exact holds
        | some frame =>
            rw [run_fetchPage_free found last, Holds.load holds last found] at taken
            obtain rfl := Option.some.inj taken
            exact Holds.occupy holds inv.pool last found (Nat.le_refl _)
  · cases taken

theorem Simulates.newPage (holds : Simulates run) (inv : Inv run)
    (taken : run.step .newPage = some run') : Simulates run' := by
  simp only [step] at taken
  cases last : run.pool.freePages.getLast? with
  | none =>
      have full := List.getLast?_eq_none_iff.mp last
      rw [run_newPage_full inv.pool full] at taken
      obtain rfl := Option.some.inj taken
      exact holds
  | some frame =>
      have absent : run.pool.bufferPages run.pool.nextPageId = none := by
        by_contra present
        exact Nat.lt_irrefl _ (inv.pool.known _ present)
      have unchanged := Holds.update_blank holds absent (Nat.le_refl _)
      have zero : run.lastWritten run.pool.nextPageId = zeroPage := by
        rw [← unchanged, Function.update_self]
      rw [run_newPage last, Holds.reset holds last, ← zero] at taken
      obtain rfl := Option.some.inj taken
      have occupied := Holds.occupy holds inv.pool last absent (Nat.le_succ _)
      simp only [Simulates, obtain, BufferManager.occupy, setFrame, Function.update_self,
        Function.update_eq_self] at occupied ⊢
      exact occupied

theorem Simulates.step (holds : Simulates run) (inv : Inv run) (call : PoolCall)
    (taken : run.step call = some run') : Simulates run' := by
  cases call with
  | fetchPage id => exact holds.fetchPage inv taken
  | newPage => exact holds.newPage inv taken
  | release id =>
      simp only [PoolRun.step] at taken
      cases found : run.pool.bufferPages id with
      | none =>
          rw [run_release_absent found] at taken
          obtain rfl := Option.some.inj taken
          exact holds
      | some frame =>
          rw [run_release found] at taken
          obtain rfl := Option.some.inj taken
          have cleaned : (run.pool.clean frame).Holds run.lastWritten :=
            Holds.clean holds inv.pool found
          exact cleaned.vacate (by simpa using found) (isDirty_clean _ _)
  | flush id =>
      obtain rfl := Option.some.inj taken
      cases found : run.pool.bufferPages id with
      | none =>
          rw [run_flush_absent found]
          exact holds
      | some frame =>
          rw [run_flush found]
          exact Holds.clean holds inv.pool found
  | touchPage id =>
      obtain rfl := Option.some.inj taken
      cases found : run.pool.bufferPages id with
      | none =>
          simp only [BufferManager.touchPage, Program.run_get_bind, found, Program.run_throw]
          exact holds
      | some frame =>
          simp only [BufferManager.touchPage, Program.run_get_bind, found, Program.run_set]
          exact Holds.touch holds frame
  | write id frame data =>
      simp only [PoolRun.step] at taken
      split at taken
      · rename_i inHand
        obtain rfl := Option.some.inj taken
        exact Holds.write holds inv.pool (inv.handles _ inHand) data
      · cases taken

/-- After any calls `FetchPage` returns a page with what was last written to it, or there
    is no frame for it, all of them being pinned. -/
theorem fetchPage_returns_lastWritten (disk : Nat → PageBytes) (maxPages : Nat)
    (frames : Nat → PageBytes) (drawn : Nat)
    (unwritten : ∀ id, drawn < id → disk id = zeroPage) (calls : List PoolCall) {run : PoolRun}
    (reached : Transition.run PoolRun.step (start disk maxPages frames drawn) calls = some run)
    (id : Nat) (legal : run.Fetchable id) :
    (fetchPage id).wp
      (fun frame pool =>
        (pool.frames frame).id = id ∧ (pool.frames frame).data = run.lastWritten id)
      (fun _ _ => run.pool.bufferPages id = none ∧
        ∀ frame < run.pool.maxPages, 0 < run.pool.lruManager.pinCount frame)
      run.pool := by
  obtain ⟨inv, holds⟩ := @Transition.invariant _ _ step (fun run => Inv run ∧ Simulates run) _ _ _
    ⟨inv_start disk maxPages frames drawn, holds_create _ _ unwritten⟩
    (fun _ call _ good taken => ⟨good.1.step call taken, good.2.step good.1 call taken⟩) reached
  have small := inv.mapped_of_fetchable legal
  cases found : run.pool.bufferPages id with
  | some frame =>
      rw [Program.wp_of_ok (run_fetchPage_mapped found), (Holds.pin holds frame).setPageId found]
      obtain ⟨ownId, ownData, -⟩ := Holds.cached holds id frame found
      exact ⟨ownId, ownData⟩
  | none =>
      cases last : run.pool.freePages.getLast? with
      | none =>
          have full := List.getLast?_eq_none_iff.mp last
          rw [Program.wp_of_error (run_fetchPage_full inv.pool found full)]
          exact ⟨rfl, inv.pool.full_iff.mp full⟩
      | some frame =>
          rw [Program.wp_of_ok (run_fetchPage_free found last), Holds.load holds last found]
          simp [BufferManager.occupy, setFrame]

/-- A page that was written, released and so lost its frame is read back. -/
theorem fetchPage_returns_lastWritten_released : ∃ run, Transition.run PoolRun.step
      (start (fun _ => zeroPage) 1 (fun _ => zeroPage) 0)
      [.newPage, .write 1 0 onePage, .release 1, .fetchPage 0, .release 0] = some run ∧
    (fetchPage 1).wp
      (fun frame pool =>
        (pool.frames frame).id = 1 ∧ (pool.frames frame).data = run.lastWritten 1)
      (fun _ _ => run.pool.bufferPages 1 = none ∧
        ∀ frame < run.pool.maxPages, 0 < run.pool.lruManager.pinCount frame)
      run.pool :=
  ⟨_, rfl, fetchPage_returns_lastWritten (fun _ => zeroPage) 1 (fun _ => zeroPage) 0
    (fun _ _ => rfl) [.newPage, .write 1 0 onePage, .release 1, .fetchPage 0, .release 0] rfl 1
    (by decide)⟩

end PoolRun

end YourSQL
