import YourSQL.Buffer.ReadYourWrites

/-! # The calls of a client of the pool

A client that runs its calls one after the other sees the map of pages `lastWritten`:
a fetch hands out what is there, and a change of a page it has is a change of the map.
-/

namespace YourSQL

namespace PoolRun

/-- Calls of a client, with what the clients hold counted. -/
abbrev Client := Program PoolRun String

open BufferManager in
/-- `FetchPage`. -/
def fetch (id : Nat) : Client Nat := ⟨fun run =>
  match (fetchPage id).run run.pool with
  | (.ok frame, pool) => (.ok frame, { run with pool := pool }.obtain id frame)
  | (.error e, pool) => (.error e, { run with pool := pool })⟩

open BufferManager in
/-- `NewPage`. -/
def allocate : Client Nat := ⟨fun run =>
  match newPage.run run.pool with
  | (.ok frame, pool) =>
      let id := (pool.frames frame).id
      (.ok frame, { run with
        pool := pool
        issued := id :: run.issued
        lastWritten := Function.update run.lastWritten id zeroPage }.obtain id frame)
  | (.error e, pool) => (.error e, { run with pool := pool })⟩

open BufferManager in
/-- `Release`. -/
def giveBack (id : Nat) : Client Unit := ⟨fun run =>
  match (release id).run run.pool with
  | (.ok _, pool) => (.ok ⟨⟩, { run with
      pool := pool
      released := Function.update run.released id (run.released id + 1)
      handles := run.handles.eraseP fun handle => handle.1 == id })
  | (.error e, pool) => (.error e, { run with pool := pool })⟩

/-- The bytes of a page that the client has are replaced, and it is marked dirty. -/
def store (frame : Nat) (data : PageBytes) : Client Unit :=
  modify fun run => { run with
    pool := run.pool.setFrame frame { run.pool.frames frame with isDirty := true, data := data }
    lastWritten := Function.update run.lastWritten (run.pool.frames frame).id data }

variable {run run' : PoolRun} {id frame : Nat} {data : PageBytes}

/-! ## A client takes the steps of a run -/

theorem step_fetchPage (legal : run.Fetchable id) :
    run.step (.fetchPage id) = some ((fetch id).run run).2 := by
  simp only [step, if_pos legal, fetch]
  split <;> simp_all

theorem step_newPage : run.step .newPage = some (allocate.run run).2 := by
  simp only [step, allocate]
  split <;> simp_all

theorem step_release : run.step (.release id) = some ((giveBack id).run run).2 := by
  simp only [step, giveBack]
  split <;> simp_all

/-- The structures are sound and the pages are those of `lastWritten`. -/
structure Serves (run : PoolRun) : Prop where
  inv : Inv run
  holds : Simulates run

theorem serves_start {disk : Nat → PageBytes} (maxPages : Nat) (frames : Nat → PageBytes)
    {drawn : Nat} (unwritten : ∀ id, drawn < id → disk id = zeroPage) :
    (start disk maxPages frames drawn).Serves :=
  ⟨inv_start disk maxPages frames drawn, BufferManager.holds_create _ _ unwritten⟩

theorem Serves.step (serves : run.Serves) (call : PoolCall) (taken : run.step call = some run') :
    run'.Serves := ⟨serves.inv.step call taken, serves.holds.step serves.inv call taken⟩

/-- A page that is in the hands of a client, in its frame. -/
theorem Serves.inFrame (serves : run.Serves) (inHand : (id, frame) ∈ run.handles) :
    (run.pool.frames frame).id = id ∧ (run.pool.frames frame).data = run.lastWritten id := by
  obtain ⟨ownId, ownData, -⟩ := BufferManager.Holds.cached serves.holds id frame
    (serves.inv.handles _ inHand)
  exact ⟨ownId, ownData⟩

theorem Serves.step_write (serves : run.Serves) (inHand : (id, frame) ∈ run.handles) :
    run.step (.write id frame data) = some ((store frame data).run run).2 := by
  simp only [PoolRun.step, if_pos inHand, store, Program.run_modify, (serves.inFrame inHand).1]

/-- Nothing but the frames and the pins is different. -/
structure Same (run run' : PoolRun) : Prop where
  serves : run'.Serves
  lastWritten : run'.lastWritten = run.lastWritten
  issued : run'.issued = run.issued

theorem Serves.same (serves : run.Serves) : run.Same run := ⟨serves, rfl, rfl⟩

/-- Every frame is pinned. -/
def Full (run : PoolRun) : Prop :=
  ∀ frame < run.pool.maxPages, 0 < run.pool.lruManager.pinCount frame

/-- A page is fetched, if there is a frame for it. -/
theorem Serves.wp_fetch (serves : run.Serves) (legal : run.Fetchable id) :
    (fetch id).wp (fun frame run' => run.Same run' ∧ run'.handles = (id, frame) :: run.handles)
      (fun e run' => e = "LRU manager is empty" ∧ run' = run ∧ run.Full) run := by
  have served : ((fetch id).run run).2.Serves := serves.step _ (step_fetchPage legal)
  unfold Program.wp
  cases found : run.pool.bufferPages id with
  | some frame =>
      simp only [fetch, BufferManager.run_fetchPage_mapped found] at served ⊢
      exact ⟨⟨served, rfl, rfl⟩, rfl⟩
  | none =>
      cases last : run.pool.freePages.getLast? with
      | none =>
          have full := List.getLast?_eq_none_iff.mp last
          simp only [fetch, BufferManager.run_fetchPage_full serves.inv.pool found full]
          exact ⟨trivial, trivial, serves.inv.pool.full_iff.mp full⟩
      | some frame =>
          simp only [fetch, BufferManager.run_fetchPage_free found last] at served ⊢
          exact ⟨⟨served, rfl, rfl⟩, rfl⟩

/-- A new page is one that was not there. -/
theorem Serves.wp_allocate (serves : run.Serves) :
    allocate.wp
      (fun frame run' => ∃ id, id ∉ run.issued ∧ id ≠ INVALID_PAGE_ID ∧ run'.Serves ∧
        run'.lastWritten = Function.update run.lastWritten id zeroPage ∧
        run'.issued = id :: run.issued ∧ run'.handles = (id, frame) :: run.handles)
      (fun e run' => e = "LRU manager is empty" ∧ run' = run ∧ run.Full) run := by
  have served : (allocate.run run).2.Serves := serves.step _ step_newPage
  unfold Program.wp
  cases last : run.pool.freePages.getLast? with
  | none =>
      have full := List.getLast?_eq_none_iff.mp last
      simp only [allocate, BufferManager.run_newPage_full serves.inv.pool full]
      exact ⟨trivial, trivial, serves.inv.pool.full_iff.mp full⟩
  | some frame =>
      have id : (((run.pool.reset frame).occupy frame run.pool.nextPageId
          (run.pool.nextPageId + 1)).frames frame).id = run.pool.nextPageId := by
        simp [BufferManager.occupy, BufferManager.reset, BufferManager.setFrame]
      simp only [allocate, BufferManager.run_newPage last, id] at served ⊢
      refine ⟨run.pool.nextPageId, fun old => ?_, ?_, served, rfl, rfl, rfl⟩
      · exact Nat.lt_irrefl _ (serves.inv.issued _ old)
      · exact Nat.ne_of_gt serves.inv.positive

/-- A page in hand can be given back. -/
theorem Serves.wp_giveBack (serves : run.Serves) (inHand : (id, frame) ∈ run.handles) :
    (giveBack id).wp
      (fun _ run' => run.Same run' ∧
        run'.handles = run.handles.eraseP fun handle => handle.1 == id)
      (fun _ _ => False) run := by
  have served : ((giveBack id).run run).2.Serves := serves.step _ step_release
  unfold Program.wp
  simp only [giveBack, BufferManager.run_release (serves.inv.handles _ inHand)] at served ⊢
  exact ⟨⟨served, rfl, rfl⟩, trivial⟩

theorem Serves.wp_store (serves : run.Serves) (inHand : (id, frame) ∈ run.handles) :
    (store frame data).wp
      (fun _ run' => run'.Serves ∧ run'.lastWritten = Function.update run.lastWritten id data ∧
        run'.issued = run.issued ∧ run'.handles = run.handles)
      (fun _ _ => False) run := by
  have served : ((store frame data).run run).2.Serves := serves.step _ (serves.step_write inHand)
  refine ⟨served, ?_, rfl, rfl⟩
  simp only [(serves.inFrame inHand).1]

/-- A page stays what it is until a client writes to it. -/
theorem Serves.kept (serves : run.Serves) {call : PoolCall} (issued : id ∈ run.issued)
    (foreign : ∀ frame data, call ≠ .write id frame data) (taken : run.step call = some run') :
    id ∈ run'.issued ∧ run'.lastWritten id = run.lastWritten id := by
  let stays (run' : PoolRun) : Prop := id ∈ run'.issued ∧ run'.lastWritten id = run.lastWritten id
  have same : ∀ run', run.Same run' → stays run' := fun run' same =>
    ⟨same.issued ▸ issued, congrFun same.lastWritten id⟩
  cases call with
  | fetchPage other =>
      by_cases legal : run.Fetchable other
      · obtain rfl := Option.some.inj ((step_fetchPage legal).symm.trans taken)
        have ended : (fetch other).wp (fun _ => stays) (fun _ => stays) run := by
          refine (serves.wp_fetch legal).mono (fun _ t fetched => same t fetched.1) ?_
          rintro e t ⟨-, rfl, -⟩
          exact same t serves.same
        exact ended.state
      · simp [PoolRun.step, legal] at taken
  | newPage =>
      obtain rfl := Option.some.inj (step_newPage.symm.trans taken)
      have ended : allocate.wp (fun _ => stays) (fun _ => stays) run := by
        refine serves.wp_allocate.mono ?_ ?_
        · rintro frame t ⟨new, fresh, -, -, lastWritten, issued', -⟩
          have ne : id ≠ new := by
            rintro rfl
            exact fresh issued
          refine ⟨issued' ▸ List.mem_cons_of_mem _ issued, ?_⟩
          rw [lastWritten, Function.update_of_ne ne]
        · rintro e t ⟨-, rfl, -⟩
          exact same t serves.same
      exact ended.state
  | release other =>
      simp only [PoolRun.step] at taken
      split at taken
      all_goals
        obtain rfl := Option.some.inj taken
        exact ⟨issued, rfl⟩
  | flush other =>
      obtain rfl := Option.some.inj taken
      exact ⟨issued, rfl⟩
  | touchPage other =>
      obtain rfl := Option.some.inj taken
      exact ⟨issued, rfl⟩
  | write other frame data =>
      simp only [PoolRun.step] at taken
      split at taken
      · obtain rfl := Option.some.inj taken
        have ne : id ≠ other := by
          rintro rfl
          exact foreign frame data rfl
        exact ⟨issued, Function.update_of_ne ne ..⟩
      · cases taken

end PoolRun

end YourSQL
