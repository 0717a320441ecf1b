import YourSQL.Executor.HeaderCopies

/-! # Two executors on one table

An INSERT and another executor take their steps in any order. As long as no executor writes
back a copy of a header that the other one has outdated, every inserted row stays where it
was put. One that does takes the other's rows off the page, or the other's page off the chain.
-/

namespace YourSQL

open Mvcc (VersionStore)

variable {s s' u : Database} {pages pages' : Nat → List Nat} {tableOf tableOf' : Nat → Nat}
  {t : Nat}

/-! ## Steps that do no harm -/

/-- DELETE writes back the copy of the header that its iterator has. -/
def TableIterator.WritesHeader (it : TableIterator) (s : Database) (trx : Nat)
    (filter : Option Filter) : Prop :=
  it.isEnd = false ∧ s.log.isSome = true ∧ s.marksOne (some trx) filter it.rowsLeft = true

instance (it : TableIterator) (s : Database) (trx : Nat) (filter : Option Filter) :
    Decidable (it.WritesHeader s trx filter) :=
  inferInstanceAs (Decidable (_ ∧ _ ∧ _))

/-- A `Next` that writes back a header it has copied has copied the one that is there. -/
def Executor.Harmless (s : Database) : Executor → Phase → ExecutorStep → Prop
  | .insert _ (.ok _), .inserting tp, .next => tp.UpToDate s
  | .delete trx filter, .scanning it, .next => it.WritesHeader s trx filter → it.Fresh s
  | _, _, _ => True

instance (s : Database) (executor : Executor) (phase : Phase) (step : ExecutorStep) :
    Decidable (executor.Harmless s phase step) := by
  unfold Executor.Harmless
  split
  · unfold TablePage.UpToDate
    infer_instance
  · unfold TableIterator.Fresh
    infer_instance
  · infer_instance

def TwoExecutors.Harmless (executors : Side → Executor) (x : TwoExecutors)
    (call : Side × ExecutorStep) : Prop :=
  (executors call.1).Harmless x.database (x.phase call.1) call.2

instance (executors : Side → Executor) (x : TwoExecutors) (call : Side × ExecutorStep) :
    Decidable (TwoExecutors.Harmless executors x call) :=
  inferInstanceAs (Decidable ((executors call.1).Harmless x.database (x.phase call.1) call.2))

/-! ## What an executor relies on -/

namespace Phase

/-- The pages that the executor will release. -/
def held : Phase → List Nat
  | inserting tp => [tp.pageId]
  | inserted tp => [tp.pageId]
  | scanning it => it.held
  | _ => []

def scans : Phase → Bool
  | scanning _ => true
  | _ => false

def Knows (s : Database) (pages : Nat → List Nat) (t : Nat) : Phase → Prop
  | inserting tp => tp.Opened pages t
  | inserted tp => tp.pageId ∈ pages t
  | scanning it => it.isEnd = true ∨ it.OnPage pages t ∧ (it.Fresh s ∨ it.Behind s)
  | _ => True

variable {phase : Phase}

theorem Knows.congr (knows : phase.Knows s pages t) (page : s'.page = s.page) :
    phase.Knows s' pages t := by
  cases phase with
  | scanning it =>
      unfold Knows TableIterator.Fresh TableIterator.Behind at knows ⊢
      rw [page]
      exact knows
  | _ => exact knows

theorem Knows.of_not_scans (knows : phase.Knows s pages t) (quiet : phase.scans = false) :
    phase.Knows s' pages t := by
  cases phase with
  | scanning it => cases quiet
  | _ => exact knows

/-- One page of the chain is written to, and that is the last one. -/
theorem Knows.lengthens {p : Nat} (knows : phase.Knows s pages t) (sound : s.Sound pages tableOf)
    (sound' : s'.Sound pages' tableOf') (lengthens : s.Lengthens pages t p s' pages')
    (last : p = s.nextPageId ∨ (s.page p).asTable.header.nextPageId = INVALID_PAGE_ID)
    (grows : ∀ q, s.rowCount q ≤ s'.rowCount q) : phase.Knows s' pages' t := by
  cases phase with
  | inserting tp =>
      exact
        { table := knows.table
          mem := lengthens.chain _ knows.mem
          headerId := knows.headerId
          unlinked := knows.unlinked
          bounded := knows.bounded }
  | inserted tp => exact lengthens.chain _ knows
  | scanning it =>
      refine Or.imp_right ?_ knows
      rintro ⟨onPage, copied⟩
      have below := sound.layout.lt_of_mem onPage.mem
      have more := grows it.currentPageId
      rw [sound.numRows, sound'.numRows] at more
      refine ⟨{ onPage with mem := lengthens.chain _ onPage.mem }, ?_⟩
      by_cases here : it.currentPageId = p
      · have link := last.resolve_left fun isNew => below.ne (here.trans isNew)
        rw [← here] at link
        rcases copied with fresh | behind
        · exact .inr ⟨fresh.1 ▸ link, fresh.2 ▸ more⟩
        · exact .inr ⟨behind.1, behind.2.trans more⟩
      · unfold TableIterator.Fresh TableIterator.Behind at copied ⊢
        rw [lengthens.page _ below here]
        exact copied
  | created => trivial
  | scanned => trivial
  | closed => trivial
  | failed => trivial

end Phase

/-! ## One step -/

/-- Records may have come, and may have been marked. -/
def Mvcc.VersionStore.Keeps (m m' : VersionStore) : Prop :=
  ∀ rid slot, m.slot rid = some slot →
    ∃ record, m'.slot rid = some ⟨slot.tableId, record⟩ ∧ slot.record.SameOrMarked record

namespace Mvcc.VersionStore

variable {m m' : VersionStore}

theorem Keeps.of_slot (same : m'.slot = m.slot) : m.Keeps m' := by
  intro rid slot found
  exact ⟨slot.record, (congrFun same rid).trans found, .inl rfl⟩

theorem Marks.keeps (marks : m.Marks m') : m.Keeps m' := fun _ _ found => marks.stored found

theorem Keeps.put {rid : RID} {new : Slot} (free : m.slot rid = none)
    (put : m'.slot = (m.put rid new).slot) : m.Keeps m' := by
  intro other slot found
  have elsewhere : other ≠ rid := by
    rintro rfl
    rw [free] at found
    cases found
  refine ⟨slot.record, ?_, .inl rfl⟩
  rw [put, slot_put, if_neg elsewhere]
  exact found

end Mvcc.VersionStore

theorem Database.rowCount_le (keeps : (s.versions tableOf).Keeps (s'.versions tableOf')) (p : Nat) :
    s.rowCount p ≤ s'.rowCount p := by
  cases count : s.rowCount p with
  | zero => exact Nat.zero_le _
  | succ last =>
      have stored : ((s.store tableOf).slot ⟨p, last + 1⟩).isSome = true :=
        (isSome_slot_iff s tableOf _).mpr ⟨Nat.le_add_left .., count.ge⟩
      obtain ⟨slot, found⟩ := Option.isSome_iff_exists.mp stored
      obtain ⟨record, found', -⟩ := keeps _ slot found
      exact ((isSome_slot_iff s' tableOf' _).mp (Option.isSome_iff_exists.mpr ⟨_, found'⟩)).2

/-- What a step of one executor has made of the database, and what it has inserted; some
    pages may stay pinned that nobody will release. -/
structure Phase.Passes (s : Database) (pages : Nat → List Nat) (tableOf : Nat → Nat) (t : Nat)
    (phase : Phase) (put : List (RID × Record)) (s' : Database) (pages' : Nat → List Nat)
    (tableOf' : Nat → Nat) (phase' : Phase) (kept : List Nat) : Prop where
  sound : s'.Sound pages' tableOf'
  known : (s'.items t).isSome = true
  swaps : s.Swaps phase.held s' (phase'.held ++ kept)
  knows : phase'.Knows s' pages' t
  others : ∀ other : Phase, phase.scans = false ∨ other.scans = false → other.Knows s pages t →
    other.Knows s' pages' t
  keeps : (s.versions tableOf).Keeps (s'.versions tableOf')
  once : (put.map Prod.fst).Nodup
  free : ∀ entry ∈ put, (s.versions tableOf).slot entry.1 = none
  put : ∀ entry ∈ put, (s'.versions tableOf').slot entry.1 = some ⟨t, entry.2⟩

def Phase.Ends (s : Database) (pages : Nat → List Nat) (tableOf : Nat → Nat) (t : Nat)
    (phase : Phase) (phase' : Phase) (put : List (RID × Record)) (s' : Database) : Prop :=
  ∃ pages' tableOf' kept, phase.Passes s pages tableOf t put s' pages' tableOf' phase' kept

namespace Phase

variable {phase phase' : Phase}

/-- A step that touches no page. -/
theorem Ends.pool {kept : List Nat} (pool : s.PoolOnly s') (sound : s'.Sound pages tableOf)
    (known : (s.items t).isSome = true) (swaps : s.Swaps phase.held s' (phase'.held ++ kept))
    (knows : phase'.Knows s' pages t) : phase.Ends s pages tableOf t phase' [] s' :=
  ⟨pages, tableOf, kept,
    { sound := sound
      known := pool.items ▸ known
      swaps := swaps
      knows := knows
      others := fun _ _ knows => knows.congr pool.page
      keeps := .of_slot (congrArg (·.slot) (pool.versions tableOf))
      once := List.nodup_nil
      free := by simp
      put := by simp }⟩

/-- `Close` of an INSERT. -/
theorem Ends.release {p : Nat} (sound : s.Sound pages tableOf) (known : (s.items t).isSome = true)
    (member : p ∈ pages t) (held : phase.held = [p]) :
    phase.Ends s pages tableOf t .closed [] ((s.unpin p).writeBack p) := by
  have inner : META_PAGE_ID ≠ p := (sound.layout.pos_of_mem member).ne
  have pool := Database.PoolOnly.release s p
  have swaps : s.Swaps phase.held ((s.unpin p).writeBack p) (Phase.closed.held ++ []) := by
    rw [held]
    exact .release s p []
  refine Ends.pool pool (pool.sound sound ?_) known swaps trivial
  simpa [Database.unpin, inner] using sound.consistent.pinned

end Phase

/-- The page that is open is the last one. -/
theorem LastPage.opened {tp : TablePage} (last : LastPage s pages tableOf t tp) :
    tp.Opened pages t := by
  obtain ⟨of_table, image, page, header⟩ := last.sees
  obtain ⟨item, entry⟩ := last.item
  have linked := last.sound.layout.linked t item entry
  obtain ⟨before, chain⟩ := List.getLast?_eq_some_iff.mp last.last
  rw [chain] at linked
  obtain ⟨second, next, stop⟩ := linked.behind
  have link : image.header.nextPageId = second := by
    rw [Database.next, page] at next
    exact Option.some.inj next
  exact
    { table := last.table
      mem := List.mem_of_getLast? last.last
      headerId := header ▸ (last.sound.consistent.header _ image page).1
      unlinked := by rw [header, link]; exact stop
      bounded := last.bounded }

namespace Executor

theorem wp_openTable (sound : s.Sound pages tableOf) (known : (s.items t).isSome = true)
    (unborn : s.Unborn) :
    (ExecutorInsert.openTable t).wp
      (fun tp u => Phase.Ends s pages tableOf t .created (.inserting tp) [] u)
      (fun _ u => Phase.Ends s pages tableOf t .created .failed [] u) s := by
  obtain ⟨item, entry⟩ := Option.isSome_iff_exists.mp known
  obtain ⟨s', tp, pages', tableOf', ran, last, lengthens, same, -, swaps⟩ :=
    run_openLastPage sound entry
  have keeps : (s.versions tableOf).Keeps (s'.versions tableOf') :=
    .of_slot (congrArg (·.slot) same)
  have opens : (ExecutorInsert.openTable t).run s = (.ok tp, s') := by
    unfold ExecutorInsert.openTable
    rw [Program.run_get_bind, entry]
    exact ran
  rw [Program.wp_of_ok opens]
  refine ⟨pages', tableOf', [],
    { sound := last.sound
      known := Option.isSome_iff_exists.mpr last.item
      swaps := swaps unborn
      knows := last.opened
      others := fun _ _ knows =>
        knows.lengthens sound last.sound lengthens (.inl rfl) (Database.rowCount_le keeps)
      keeps := keeps
      once := List.nodup_nil
      free := by simp
      put := by simp }⟩

theorem wp_insertNext {tp : TablePage} (sound : s.Sound pages tableOf)
    (known : (s.items t).isSome = true) (unborn : s.Unborn) (opened : tp.Opened pages t)
    (pinned : s.pins tp.pageId ≠ 0) (trx : Nat) (row : Except String (List UInt8))
    (harmless : (Executor.insert trx row).Harmless s (.inserting tp) .next) :
    (ExecutorInsert.next (some trx) t row tp).wp
      (fun out u => Phase.Ends s pages tableOf t (.inserting tp) (.inserted out.1) [out.2] u)
      (fun _ u => Phase.Ends s pages tableOf t (.inserting tp) .failed [] u) s := by
  cases row with
  | error message =>
      have raised : (ExecutorInsert.next (some trx) t (.error message) tp).run s =
          (.error message, s) := rfl
      rw [Program.wp_of_error raised]
      have kept : s.Swaps [tp.pageId] s ([] ++ [tp.pageId]) := .refl s _
      exact Phase.Ends.pool (.refl s) sound known kept trivial
  | ok payload =>
      obtain ⟨item, entry⟩ := Option.isSome_iff_exists.mp known
      have upToDate : tp.UpToDate s := harmless
      obtain ⟨result, s', pages', tableOf', held, ran, sound', lengthens, known', swaps, ended⟩ :=
        ExecutorInsert.run_next sound opened upToDate entry pinned unborn trx payload
      have others : ∀ (keeps : (s.versions tableOf).Keeps (s'.versions tableOf')) (other : Phase),
          (Phase.inserting tp).scans = false ∨ other.scans = false → other.Knows s pages t →
          other.Knows s' pages' t := fun keeps _ _ knows =>
        knows.lengthens sound sound' lengthens (.inr (upToDate.2.symm.trans opened.unlinked))
          (Database.rowCount_le keeps)
      rcases ended with ⟨⟨message, rfl⟩, same⟩ | ⟨tp', rid, tuple, rfl, rfl, member, free, put⟩
      · rw [Program.wp_of_error ran]
        have keeps : (s.versions tableOf).Keeps (s'.versions tableOf') := .of_slot same
        exact ⟨pages', tableOf', held,
          { sound := sound'
            known := known'
            swaps := swaps
            knows := trivial
            others := others keeps
            keeps := keeps
            once := List.nodup_nil
            free := by simp
            put := by simp }⟩
      · rw [Program.wp_of_ok ran]
        have keeps : (s.versions tableOf).Keeps (s'.versions tableOf') := .put free put
        exact ⟨pages', tableOf', [],
          { sound := sound'
            known := known'
            swaps := swaps
            knows := member
            others := others keeps
            keeps := keeps
            once := List.nodup_singleton _
            free := by simpa using free
            put := by
              simp only [List.mem_singleton, forall_eq]
              rw [put, VersionStore.slot_put, if_pos rfl] }⟩


theorem wp_create (sound : s.Sound pages tableOf) (known : (s.items t).isSome = true) :
    (ExecutorDelete.openTable t).wp
      (fun it u => Phase.Ends s pages tableOf t .created (.scanning it) [] u)
      (fun _ u => Phase.Ends s pages tableOf t .created .failed [] u) s := by
  obtain ⟨item, entry⟩ := Option.isSome_iff_exists.mp known
  obtain ⟨it, s', ran, stands, pool, sound', swaps⟩ := TableIterator.run_create sound entry
  rw [Program.wp_of_ok (show (ExecutorDelete.openTable t).run s = _ from ran)]
  have kept : s.Swaps [] s' (it.held ++ []) := by
    rw [List.append_nil]
    exact swaps
  refine Phase.Ends.pool pool sound' known kept ?_
  generalize s.addresses (pages t) = left at stands
  cases stands with
  | ended isEnd => exact .inl isEnd
  | onRow holds count lower upper =>
      obtain ⟨image, page, header⟩ := holds.sees.page
      rw [holds.pageId] at page
      refine .inr ⟨?_, .inl ⟨?_, ?_⟩⟩
      · exact
          { running := holds.running
            table := holds.table
            mem := holds.mem
            pageId := holds.pageId
            tableId := by
              rw [holds.sees.table, holds.pageId]
              exact ((sound'.layout.member t _).mp holds.mem).2
            lower := lower
            upper := upper }
      · rw [page]
        exact header
      · rw [count, sound'.numRows]

theorem wp_deleteNext {it : TableIterator} (sound : s.Sound pages tableOf)
    (known : (s.items t).isSome = true) (unborn : s.Unborn)
    (knows : (Phase.scanning it).Knows s pages t) (pinned : ∀ p ∈ it.held, s.pins p ≠ 0) (trx : Nat)
    (filter : Option Filter)
    (harmless : (Executor.delete trx filter).Harmless s (.scanning it) .next) :
    (ExecutorDelete.next (some trx) filter it).wp
      (fun _ u => Phase.Ends s pages tableOf t (.scanning it) .scanned [] u)
      (fun _ u => Phase.Ends s pages tableOf t (.scanning it) .failed [] u) s := by
  have quiet : it.WritesHeader s trx filter → it.Fresh s := harmless
  have scans : it.isEnd = true ∨ it.OnPage pages t ∧ s.pins it.currentPageId ≠ 0 ∧
      (it.Fresh s ∨ it.Behind s ∧
        (s.log = none ∨ s.marksOne (some trx) filter it.rowsLeft = false)) := by
    refine Or.imp_right ?_ knows
    rintro ⟨onPage, copied⟩
    refine ⟨onPage, pinned _ (by simp [TableIterator.held_of_running onPage.running]), ?_⟩
    by_cases writes : it.WritesHeader s trx filter
    · exact .inl (quiet writes)
    · refine copied.imp_right fun behind => ⟨behind, ?_⟩
      by_contra both
      obtain ⟨logged, marks⟩ := not_or.mp both
      exact writes ⟨onPage.running, Option.isSome_iff_ne_none.mpr logged, by simpa using marks⟩
  have ends : ∀ {u held} (phase' : Phase), phase'.held = [] → phase'.Knows u pages t →
      s.Scanned pages tableOf t it.held u held →
      Phase.Ends s pages tableOf t (.scanning it) phase' [] u := by
    intro u held phase' none knows scanned
    refine ⟨pages, tableOf, held,
      { sound := scanned.sound
        known := scanned.known
        swaps := ?_
        knows := knows
        others := ?_
        keeps := scanned.marks.keeps
        once := List.nodup_nil
        free := by simp
        put := by simp }⟩
    · rw [none]
      exact scanned.swaps
    · intro other aside knows
      exact knows.of_not_scans (aside.resolve_left (by simp [Phase.scans]))
  apply (ExecutorDelete.wp_next trx sound unborn known scans).mono
  · rintro _ u ⟨held, scanned⟩
    exact ends .scanned rfl trivial scanned
  · rintro _ u ⟨held, scanned⟩
    exact ends .failed rfl trivial scanned

/-- Whatever step an executor takes. -/
theorem wp_perform {executor : Executor} {phase : Phase} {step : ExecutorStep}
    {body : Exec (Phase × List (RID × Record))} (sound : s.Sound pages tableOf)
    (known : (s.items t).isSome = true) (unborn : s.Unborn) (knows : phase.Knows s pages t)
    (pinned : ∀ p ∈ phase.held, s.pins p ≠ 0) (harmless : executor.Harmless s phase step)
    (taken : executor.perform t phase step = some body) :
    body.wp (fun out u => phase.Ends s pages tableOf t out.1 out.2 u)
      (fun _ u => phase.Ends s pages tableOf t .failed [] u) s := by
  have still : ∀ {phase' : Phase} (kept : List Nat), phase'.Knows s pages t →
      phase.held = phase'.held ++ kept → phase.Ends s pages tableOf t phase' [] s := by
    intro phase' kept knows' same
    have swaps : s.Swaps phase.held s (phase'.held ++ kept) := same ▸ .refl s phase.held
    exact .pool (.refl s) sound known swaps knows'
  have closes : ∀ {p}, p ∈ pages t → phase.held = [p] →
      (release p).wp (fun _ u => phase.Ends s pages tableOf t .closed [] u)
        (fun _ u => phase.Ends s pages tableOf t .failed [] u) s := by
    intro p member held
    rw [Program.wp_of_ok (run_release (pinned p (by simp [held])))]
    exact .release sound known member held
  unfold perform at taken
  split at taken <;> cases taken
  case h_1 =>
    rw [Program.wp_bind]
    exact wp_openTable sound known unborn
  case h_2 trx row tp =>
    rw [Program.wp_bind]
    exact wp_insertNext sound known unborn knows (pinned _ (by simp [Phase.held])) trx row harmless
  case h_3 => exact still [] knows rfl
  case h_4 =>
    rw [Program.wp_bind]
    exact closes knows.mem rfl
  case h_5 =>
    rw [Program.wp_bind]
    exact closes knows rfl
  case h_6 =>
    rw [Program.wp_bind]
    exact wp_create sound known
  case h_7 trx filter it =>
    rw [Program.wp_bind]
    exact wp_deleteNext sound known unborn knows pinned trx filter harmless
  case h_8 => exact still [] trivial rfl
  case h_9 it => exact still it.held trivial rfl
  case h_10 => exact still [] trivial rfl

end Executor

/-! ## Both executors -/

/-- An INSERT never scans. -/
theorem Executor.scans_of_insert {executor : Executor} {trx : Nat} {row : Except String (List UInt8)}
    {phase : Phase} {step : ExecutorStep} {body : Exec (Phase × List (RID × Record))}
    {out : Phase × List (RID × Record)} (inserts : executor = .insert trx row)
    (taken : executor.perform t phase step = some body) (ran : body.run s = (.ok out, s')) :
    out.1.scans = false := by
  unfold perform at taken
  split at taken <;> cases taken
  case h_1 =>
    obtain ⟨_, _, -, returned⟩ := Program.run_bind_eq_ok.mp ran
    cases returned
    rfl
  case h_2 =>
    obtain ⟨_, _, -, returned⟩ := Program.run_bind_eq_ok.mp ran
    cases returned
    rfl
  case h_3 =>
    cases ran
    rfl
  case h_4 =>
    obtain ⟨_, _, -, returned⟩ := Program.run_bind_eq_ok.mp ran
    cases returned
    rfl
  case h_5 =>
    obtain ⟨_, _, -, returned⟩ := Program.run_bind_eq_ok.mp ran
    cases returned
    rfl
  all_goals cases inserts

namespace TwoExecutors

/-- Every inserted row is where it was put, with the bytes it had, and an iterator meets it
    there; no two have been put to one place. -/
def Intact (t : Nat) (x : TwoExecutors) : Prop :=
  (x.given.map Prod.fst).Nodup ∧
    ∃ rows s', (TableIterator.collect t).run x.database = (.ok rows, s') ∧
      ∀ entry ∈ x.given, ∃ record, (entry.1, some record) ∈ rows ∧ entry.2.SameOrMarked record

/-- Both have come here, and only one of them scans. -/
structure Abreast (t : Nat) (x : TwoExecutors) (pages : Nat → List Nat) (tableOf : Nat → Nat)
    (base : Nat → Nat) (kept : List Nat) : Prop where
  sound : x.database.Sound pages tableOf
  known : (x.database.items t).isSome = true
  unborn : x.database.Unborn
  holding : x.database.Holding base
    ((x.phase .first).held ++ ((x.phase .second).held ++ kept))
  knows : ∀ side, (x.phase side).Knows x.database pages t
  quiet : (x.phase .first).scans = false
  distinct : (x.given.map Prod.fst).Nodup
  given : ∀ entry ∈ x.given, ∃ record,
    (x.database.versions tableOf).slot entry.1 = some ⟨t, record⟩ ∧ entry.2.SameOrMarked record

namespace Abreast

variable {x : TwoExecutors} {base : Nat → Nat} {kept : List Nat}

theorem pinned (abreast : x.Abreast t pages tableOf base kept) (side : Side) :
    ∀ p ∈ (x.phase side).held, x.database.pins p ≠ 0 := by
  intro p member
  have counted := abreast.holding p
  have positive := List.count_pos_iff.mpr member
  rw [List.count_append, List.count_append] at counted
  cases side <;> omega

theorem intact (abreast : x.Abreast t pages tableOf base kept) : x.Intact t := by
  obtain ⟨item, entry⟩ := Option.isSome_iff_exists.mp abreast.known
  obtain ⟨s', ran, -⟩ := TableIterator.run_collect abreast.sound entry
  refine ⟨abreast.distinct, _, s', ran, ?_⟩
  intro put member
  obtain ⟨record, stored, same⟩ := abreast.given put member
  refine ⟨record, List.mem_map.mpr ⟨put.1, ?_, ?_⟩, same⟩
  · exact abreast.sound.mem_addresses.mpr ⟨record, stored⟩
  · rw [Database.tupleAt_of_slot stored]

/-- What one executor has done, seen from both. -/
theorem moved {side : Side} {phase' : Phase} {put : List (RID × Record)}
    (abreast : x.Abreast t pages tableOf base kept)
    (ends : (x.phase side).Ends x.database pages tableOf t phase' put s')
    (quiet : side = .first → phase'.scans = false) :
    (∃ pages' tableOf' kept', Abreast t
      ⟨s', Function.update x.phase side phase', x.given ++ put⟩ pages' tableOf' base kept') ∧
      ∀ p, (x.database.page p).asTable.header.numRows ≤ (s'.page p).asTable.header.numRows := by
  obtain ⟨pages', tableOf', more, passes⟩ := ends
  refine ⟨⟨pages', tableOf', more ++ kept, ?_⟩, fun p => ?_⟩
  rotate_left
  · rw [← abreast.sound.numRows, ← passes.sound.numRows]
    exact Database.rowCount_le passes.keeps p
  refine
    { sound := passes.sound
      known := passes.known
      unborn := passes.swaps.unborn abreast.unborn
      holding := ?_
      knows := ?_
      quiet := ?_
      distinct := ?_
      given := ?_ }
  · intro p
    have before := abreast.holding
    cases side with
    | first =>
        have after := (passes.swaps.frame ((x.phase .second).held ++ kept)).holding base before p
        rw [after]
        simp only [Function.update_self, ne_eq, reduceCtorEq, not_false_eq_true,
          Function.update_of_ne, List.count_append]
        omega
    | second =>
        have swapped : x.database.Holding base
            ((x.phase .second).held ++ ((x.phase .first).held ++ kept)) := by
          intro q
          rw [before q]
          simp only [List.count_append]
          omega
        have after := (passes.swaps.frame ((x.phase .first).held ++ kept)).holding base swapped p
        rw [after]
        simp only [Function.update_self, ne_eq, reduceCtorEq, not_false_eq_true,
          Function.update_of_ne, List.count_append]
        omega
  · intro other
    by_cases same : other = side
    · subst same
      dsimp only
      rw [Function.update_self]
      exact passes.knows
    · dsimp only
      rw [Function.update_of_ne same]
      refine passes.others _ ?_ (abreast.knows other)
      cases side with
      | first => exact .inl abreast.quiet
      | second =>
          cases other with
          | first => exact .inr abreast.quiet
          | second => exact absurd rfl same
  · cases side with
    | first => exact quiet rfl
    | second => exact abreast.quiet
  · rw [List.map_append, List.nodup_append]
    refine ⟨abreast.distinct, passes.once, ?_⟩
    intro rid given rid' new same
    subst same
    obtain ⟨entry, member, rfl⟩ := List.mem_map.mp given
    obtain ⟨entry', member', same⟩ := List.mem_map.mp new
    obtain ⟨record, stored, -⟩ := abreast.given entry member
    have free := passes.free entry' member'
    rw [same, stored] at free
    cases free
  · intro entry member
    rcases List.mem_append.mp member with before | new
    · obtain ⟨record, stored, same⟩ := abreast.given entry before
      obtain ⟨record', stored', same'⟩ := passes.keeps _ _ stored
      exact ⟨record', stored', same.trans same'⟩
    · exact ⟨entry.2, passes.put entry new, .inl rfl⟩

end Abreast

variable {executors : Side → Executor} {call : Side × ExecutorStep} {x x' : TwoExecutors}
  {base : Nat → Nat} {kept : List Nat}

/-- No page counts fewer rows than before. -/
def RowsGrow (x x' : TwoExecutors) : Prop :=
  ∀ p, (x.database.page p).asTable.header.numRows ≤ (x'.database.page p).asTable.header.numRows

theorem Abreast.step (abreast : x.Abreast t pages tableOf base kept) {trx : Nat}
    {row : Except String (List UInt8)} (inserts : executors .first = .insert trx row)
    (harmless : Harmless executors x call) (taken : x.step t executors call = some x') :
    (∃ pages' tableOf' kept', Abreast t x' pages' tableOf' base kept') ∧ RowsGrow x x' := by
  obtain ⟨side, step⟩ := call
  obtain ⟨body, performed, rfl⟩ := Option.map_eq_some_iff.mp taken
  have ended := Executor.wp_perform abreast.sound abreast.known abreast.unborn (abreast.knows side)
    (abreast.pinned side) harmless performed
  unfold Program.wp at ended
  generalize ran : body.run x.database = result at ended ⊢
  obtain ⟨message | ⟨phase', put⟩, s'⟩ := result
  · have kept' := abreast.moved ended fun _ => rfl
    rw [List.append_nil] at kept'
    exact kept'
  · refine abreast.moved ended ?_
    rintro rfl
    exact Executor.scans_of_insert inserts performed ran

theorem Abreast.begun (tidy : s.Tidy pages tableOf) (known : (s.items t).isSome = true) :
    (begun s).Abreast t pages tableOf s.pins [] where
  sound := tidy.sound
  known := known
  unborn := tidy.unborn
  holding p := by simp [TwoExecutors.begun, Phase.held]
  knows side := trivial
  quiet := rfl
  distinct := List.nodup_nil
  given entry member := by cases member

end TwoExecutors

/-- Two INSERTs into the table without rows, of which the second opens behind the first row. -/
def twoInserts : Side → Executor
  | .first => .insert 1 (.ok [7])
  | .second => .insert 2 (.ok [8])

/-- Opened before either has inserted, both are given one address. -/
example :
    (Transition.run (TwoExecutors.step 1 twoInserts) (.begun begunOnTable)
      [(.first, .opens), (.second, .opens), (.first, .next), (.second, .next)]).map
        (fun x => x.given.map Prod.fst) = some [⟨1, 1⟩, ⟨1, 1⟩] := by
  decide

end YourSQL
