import YourSQL.Buffer.PoolRun

/-! # The buffer pool over a disk that fails

`FetchPage`, `NewPage` and `Release` over any disk manager whose `Read` and `Write` may
throw. The steps of a call that stand before its disk operation are not taken back.
-/

namespace YourSQL

/-- The two operations, with what they leave of the disk when they throw. `Read` is given
    the bytes of the frame, and changes them only if it returns. -/
structure DiskManger (δ : Type) where
  read : δ → Nat → PageBytes → Except String PageBytes × δ
  write : δ → Nat → PageBytes → Except String PUnit × δ

/-- `PosixDiskManager` with `is_open` of its stream. -/
structure PosixDisk where
  isOpen : Bool
  file : PosixDiskManager

/-- The stream operations throw nothing themselves. -/
def posixDisk : DiskManger PosixDisk where
  read disk pageId page :=
    if disk.isOpen then
      (.ok (disk.file.read pageId page).1, { disk with file := (disk.file.read pageId page).2 })
    else
      (.error "PosixDiskManager::Read: File is not open", disk)
  write disk pageId page :=
    if disk.isOpen then
      (.ok ⟨⟩, { disk with file := disk.file.write pageId page })
    else
      (.error "PosixDiskManager::Write: File is not open", disk)

/-- A disk that never fails, as a map of pages. -/
def steadyDisk : DiskManger (Nat → PageBytes) where
  read disk pageId _ := (.ok (disk pageId), disk)
  write disk pageId page := (.ok ⟨⟩, Function.update disk pageId page)

/-- The buffer pool, over a disk in state `disk`. -/
structure DiskPool (δ : Type) where
  disk : δ
  lruManager : LRUManager := {}
  maxPages : Nat := BUFFER_MAX_PAGE
  frames : Nat → Frame
  freePages : List Nat
  bufferPages : Nat → Option Nat := fun _ => none
  nextPageId : Nat := 1

namespace DiskPool

variable {δ : Type}

def setFrame (m : DiskPool δ) (frame : Nat) (page : Frame) : DiskPool δ :=
  { m with frames := Function.update m.frames frame page }

def mapPage (m : DiskPool δ) (id frame : Nat) : DiskPool δ :=
  { m with bufferPages := Function.update m.bufferPages id (some frame) }

def setDirty (m : DiskPool δ) (frame : Nat) (isDirty : Bool) : DiskPool δ :=
  m.setFrame frame { m.frames frame with isDirty := isDirty }

def setPageId (m : DiskPool δ) (frame id : Nat) : DiskPool δ :=
  m.setFrame frame { m.frames frame with id := id }

def pin (m : DiskPool δ) (frame : Nat) : DiskPool δ :=
  { m with lruManager := m.lruManager.pin frame }

section Calls

variable (D : DiskManger δ)

/-- `disk_manager_->Write` of a frame. -/
def writeFrame (frame : Nat) : Program (DiskPool δ) String PUnit := do
  let m ← get
  set { m with disk := (D.write m.disk (m.frames frame).id (m.frames frame).data).2 }
  Program.lift (D.write m.disk (m.frames frame).id (m.frames frame).data).1

def writeIfDirty (frame : Nat) : Program (DiskPool δ) String PUnit := do
  let m ← get
  if (m.frames frame).isDirty then
    writeFrame D frame

/-- `disk_manager_->Read` into a frame. -/
def readFrame (id frame : Nat) : Program (DiskPool δ) String PUnit := do
  let m ← get
  set { m with disk := (D.read m.disk id (m.frames frame).data).2 }
  let data ← Program.lift (D.read m.disk id (m.frames frame).data).1
  modify fun m => m.setFrame frame { m.frames frame with data := data }

def fetchPage (id : Nat) : Program (DiskPool δ) String Nat := do
  let m ← get
  match m.bufferPages id with
  | some frame =>
      modify (pin · frame)
      modify (setPageId · frame id)
      return frame
  | none =>
      match m.freePages.getLast? with
      | some frame =>
          modify fun m => { m with freePages := m.freePages.dropLast }
          writeIfDirty D frame
          readFrame D id frame
          modify (pin · frame)
          modify (mapPage · id frame)
          modify (setPageId · frame id)
          return frame
      | none =>
          let frame ← Program.lift m.lruManager.evict
          writeIfDirty D frame
          readFrame D id frame
          modify (setDirty · frame false)
          modify (pin · frame)
          modify (mapPage · id frame)
          modify (setPageId · frame id)
          return frame

/-- What both branches of `NewPage` do with the frame they take. -/
def renew (frame : Nat) : Program (DiskPool δ) String Nat := do
  modify (pin · frame)
  writeIfDirty D frame
  modify fun m =>
    { m.setFrame frame { isDirty := false, id := m.nextPageId, data := zeroPage } with
      nextPageId := m.nextPageId + 1 }.mapPage m.nextPageId frame
  return frame

def newPage : Program (DiskPool δ) String Nat := do
  let m ← get
  match m.freePages.getLast? with
  | some frame =>
      modify fun m => { m with freePages := m.freePages.dropLast }
      renew D frame
  | none =>
      let frame ← Program.lift m.lruManager.evict
      renew D frame

def release (id : Nat) : Program (DiskPool δ) String PUnit := do
  let m ← get
  match m.bufferPages id with
  | none => throw "BufferManager::Release: Page not found"
  | some frame =>
      modify fun m => { m with lruManager := m.lruManager.unPin frame }
      if (m.frames frame).isDirty then
        writeFrame D frame
        modify (setDirty · frame false)
      modify fun m =>
        if m.lruManager.pinCount frame = 0 then
          { m with
            freePages := frame :: m.freePages
            bufferPages := Function.update m.bufferPages id none }
        else
          m

end Calls

/-- The calls that the pool is asked for. -/
inductive Request where
  | fetchPage (id : Nat)
  | newPage
  | release (id : Nat)
  deriving Repr, DecidableEq

/-- What a call throws, if it does, and the pool that it leaves. -/
def serve (D : DiskManger δ) (m : DiskPool δ) : Request → Option String × DiskPool δ
  | .fetchPage id => outcome ((fetchPage D id).run m)
  | .newPage => outcome ((newPage D).run m)
  | .release id => outcome ((release D id).run m)
where
  outcome {α : Type} : Except String α × DiskPool δ → Option String × DiskPool δ
    | (.ok _, m) => (none, m)
    | (.error message, m) => (some message, m)

/-- The same free list, page map, pin counts, list and page contents. -/
structure Same (m m' : DiskPool δ) : Prop where
  freePages : m'.freePages = m.freePages
  bufferPages : m'.bufferPages = m.bufferPages
  lruManager : m'.lruManager = m.lruManager
  frames : m'.frames = m.frames

/-- A call that throws leaves the pool as it was. -/
def ExceptionSafe (D : DiskManger δ) (m : DiskPool δ) (request : Request) : Prop :=
  ∀ message, (m.serve D request).1 = some message → m.Same (m.serve D request).2

/-! ## Where the disk may fail -/

/-- The frame is clean, or its page can be written. -/
def WritesBack (D : DiskManger δ) (m : DiskPool δ) (frame : Nat) : Prop :=
  (m.frames frame).isDirty = true →
    (D.write m.disk (m.frames frame).id (m.frames frame).data).1 = .ok ⟨⟩

/-- The disk once the page in the frame is written back. -/
def diskAfter (D : DiskManger δ) (m : DiskPool δ) (frame : Nat) : δ :=
  if (m.frames frame).isDirty then
    (D.write m.disk (m.frames frame).id (m.frames frame).data).2
  else
    m.disk

/-- The page can be read into the frame. -/
def Reads (D : DiskManger δ) (m : DiskPool δ) (frame id : Nat) : Prop :=
  ∃ data, (D.read (m.diskAfter D frame) id (m.frames frame).data).1 = .ok data

/-- The frame that `NewPage` takes. -/
def nextFrame (m : DiskPool δ) : Option Nat :=
  match m.freePages.getLast? with
  | some frame => some frame
  | none => (m.lruManager.evict).toOption

/-- The disk does not fail behind a change to the pool: not when a page is fetched into a free
    frame, and not when what is dirty is written for a new page or a release. -/
def Endures (D : DiskManger δ) (m : DiskPool δ) : Request → Prop
  | .fetchPage id => m.bufferPages id = none →
      ∀ frame, m.freePages.getLast? = some frame → m.WritesBack D frame ∧ m.Reads D frame id
  | .newPage => ∀ frame, m.nextFrame = some frame → m.WritesBack D frame
  | .release id => ∀ frame, m.bufferPages id = some frame → m.WritesBack D frame

variable {D : DiskManger δ} {m : DiskPool δ} {id frame : Nat}

/-! ## What each part does -/

/-- How writing back ends. -/
def writeResult (D : DiskManger δ) (m : DiskPool δ) (frame : Nat) : Except String PUnit :=
  if (m.frames frame).isDirty then
    (D.write m.disk (m.frames frame).id (m.frames frame).data).1
  else
    .ok ⟨⟩

theorem writesBack_iff : m.WritesBack D frame ↔ m.writeResult D frame = .ok ⟨⟩ := by
  unfold WritesBack writeResult
  cases (m.frames frame).isDirty with
  | true => simp
  | false => simp

theorem run_writeIfDirty (D : DiskManger δ) (m : DiskPool δ) (frame : Nat) :
    (writeIfDirty D frame).run m =
      (m.writeResult D frame, { m with disk := m.diskAfter D frame }) := by
  unfold writeIfDirty writeResult diskAfter
  cases dirty : (m.frames frame).isDirty with
  | true =>
      simp only [Program.run_get_bind, dirty, if_true]
      rfl
  | false =>
      simp only [Program.run_get_bind, dirty, Bool.false_eq_true, if_false]
      rfl

theorem run_readFrame (D : DiskManger δ) (m : DiskPool δ) (id frame : Nat) :
    (readFrame D id frame).run m =
      match (D.read m.disk id (m.frames frame).data).1 with
      | .ok data =>
          (.ok ⟨⟩, { m with disk := (D.read m.disk id (m.frames frame).data).2 }.setFrame frame
            { m.frames frame with data := data })
      | .error message =>
          (.error message, { m with disk := (D.read m.disk id (m.frames frame).data).2 }) := by
  unfold readFrame
  simp only [Program.run_get_bind]
  change Program.run (Program.lift (D.read m.disk id (m.frames frame).data).1 >>= _) _ = _
  rw [Program.run_bind, Program.run_lift]
  cases (D.read m.disk id (m.frames frame).data).1 <;> rfl

theorem same_disk (m : DiskPool δ) (disk : δ) : m.Same { m with disk := disk } :=
  ⟨rfl, rfl, rfl, rfl⟩

/-- A frame that was popped is missed. -/
theorem not_same_of_popped {m' : DiskPool δ} (last : m.freePages.getLast? = some frame)
    (popped : m'.freePages = m.freePages.dropLast) : ¬ m.Same m' := by
  intro same
  have length := congrArg List.length (popped.symm.trans same.freePages)
  have nonempty : m.freePages ≠ [] := by
    intro empty
    rw [empty] at last
    cases last
  have := List.length_pos_of_ne_nil nonempty
  rw [List.length_dropLast] at length
  omega

theorem not_same_of_pinCount {m' : DiskPool δ}
    (counted : m'.lruManager.pinCount frame ≠ m.lruManager.pinCount frame) : ¬ m.Same m' :=
  fun same => counted (by rw [same.lruManager])

/-! ## The calls -/

theorem exceptionSafe_of_returns {request : Request} (returns : (m.serve D request).1 = none) :
    ExceptionSafe D m request := by
  intro message thrown
  rw [returns] at thrown
  cases thrown

theorem exceptionSafe_of_same {request : Request} (same : m.Same (m.serve D request).2) :
    ExceptionSafe D m request := fun _ _ => same

/-- What a call throws is what its program raises. -/
theorem outcome_same_iff {α : Type} {x : Program (DiskPool δ) String α} :
    (∀ message, (serve.outcome (x.run m)).1 = some message →
        m.Same (serve.outcome (x.run m)).2) ↔
      x.wp (fun _ _ => True) (fun _ m' => m.Same m') m := by
  unfold Program.wp
  rcases x.run m with ⟨_ | _, m'⟩ <;> simp [serve.outcome]

theorem exceptionSafe_iff_fetchPage : ExceptionSafe D m (.fetchPage id) ↔
    (fetchPage D id).wp (fun _ _ => True) (fun _ m' => m.Same m') m := outcome_same_iff

theorem exceptionSafe_iff_newPage : ExceptionSafe D m .newPage ↔
    (newPage D).wp (fun _ _ => True) (fun _ m' => m.Same m') m := outcome_same_iff

theorem exceptionSafe_iff_release : ExceptionSafe D m (.release id) ↔
    (release D id).wp (fun _ _ => True) (fun _ m' => m.Same m') m := outcome_same_iff

theorem run_fetchPage_free (absent : m.bufferPages id = none)
    (last : m.freePages.getLast? = some frame) :
    (fetchPage D id).run m =
      (do
        writeIfDirty D frame
        readFrame D id frame
        modify (pin · frame)
        modify (mapPage · id frame)
        modify (setPageId · frame id)
        return frame : Program (DiskPool δ) String Nat).run
          { m with freePages := m.freePages.dropLast } := by
  unfold fetchPage
  simp only [Program.run_get_bind, absent, last]
  rfl

/-- The pool once a page is read into a free frame. -/
def loaded (D : DiskManger δ) (m : DiskPool δ) (id frame : Nat) (data : PageBytes) : DiskPool δ :=
  { m with
    disk := (D.read (m.diskAfter D frame) id (m.frames frame).data).2
    lruManager := m.lruManager.pin frame
    frames := Function.update m.frames frame { m.frames frame with data := data, id := id }
    freePages := m.freePages.dropLast
    bufferPages := Function.update m.bufferPages id (some frame) }

/-- Into a free frame: what the disk throws comes behind `pop_back`. -/
theorem fetchPage_free_ends (absent : m.bufferPages id = none)
    (last : m.freePages.getLast? = some frame) :
    (¬ (m.WritesBack D frame ∧ m.Reads D frame id) ∧ ∃ message disk,
      (fetchPage D id).run m =
        (.error message, { m with freePages := m.freePages.dropLast, disk := disk })) ∨
    (m.WritesBack D frame ∧ m.Reads D frame id) ∧ ∃ data,
      (fetchPage D id).run m = (.ok frame, m.loaded D id frame data) := by
  let popped : DiskPool δ := { m with freePages := m.freePages.dropLast }
  have ran := @run_fetchPage_free δ D m id frame absent last
  have wrote : (writeIfDirty D frame).run popped =
      (m.writeResult D frame, { popped with disk := m.diskAfter D frame }) :=
    run_writeIfDirty D popped frame
  rw [writesBack_iff]
  cases written : m.writeResult D frame with
  | error message =>
      rw [written] at wrote
      refine .inl ⟨fun both => (nomatch both.1), message, m.diskAfter D frame, ?_⟩
      rw [ran, Program.run_bind_of_error wrote]
  | ok _ =>
      rw [written] at wrote
      have readRan : (readFrame D id frame).run { popped with disk := m.diskAfter D frame } =
          match (D.read (m.diskAfter D frame) id (m.frames frame).data).1 with
          | .ok data => (.ok ⟨⟩, { popped with
              disk := (D.read (m.diskAfter D frame) id (m.frames frame).data).2 }.setFrame frame
                { m.frames frame with data := data })
          | .error message => (.error message, { popped with
              disk := (D.read (m.diskAfter D frame) id (m.frames frame).data).2 }) :=
        run_readFrame D { popped with disk := m.diskAfter D frame } id frame
      cases read : (D.read (m.diskAfter D frame) id (m.frames frame).data).1 with
      | error message =>
          rw [read] at readRan
          refine .inl ⟨?_, message, (D.read (m.diskAfter D frame) id (m.frames frame).data).2, ?_⟩
          · rintro ⟨-, data, reads⟩
            rw [read] at reads
            cases reads
          · rw [ran, Program.run_bind_of_ok wrote, Program.run_bind_of_error readRan]
      | ok data =>
          rw [read] at readRan
          refine .inr ⟨⟨rfl, data, read⟩, data, ?_⟩
          rw [ran, Program.run_bind_of_ok wrote, Program.run_bind_of_ok readRan]
          simp only [Program.run_modify_bind, Program.run_pure, setFrame, pin, mapPage, setPageId,
            Function.update_self, Function.update_idem]
          rfl

theorem exceptionSafe_fetchPage_free (absent : m.bufferPages id = none)
    (last : m.freePages.getLast? = some frame) :
    ExceptionSafe D m (.fetchPage id) ↔ m.WritesBack D frame ∧ m.Reads D frame id := by
  cases fetchPage_free_ends (D := D) absent last with
  | inl failed =>
      obtain ⟨fails, message, disk, ran⟩ := failed
      refine iff_of_false (fun safe => ?_) fails
      rw [exceptionSafe_iff_fetchPage, Program.wp, ran] at safe
      exact not_same_of_popped last rfl safe
  | inr returned =>
      obtain ⟨works, data, ran⟩ := returned
      refine iff_of_true (exceptionSafe_of_returns ?_) works
      rw [serve, ran]
      rfl

/-- With an evicted frame: the pool is changed only when the disk has done its part. -/
theorem exceptionSafe_fetchPage_full (absent : m.bufferPages id = none)
    (full : m.freePages.getLast? = none) : ExceptionSafe D m (.fetchPage id) := by
  apply exceptionSafe_iff_fetchPage.mpr
  unfold fetchPage
  rw [Program.wp_bind, Program.wp_get]
  simp only [absent, full]
  rw [Program.wp_bind]
  cases m.lruManager.evict with
  | error message => exact m.same_disk m.disk
  | ok frame =>
      have wrote := run_writeIfDirty D m frame
      rw [Program.wp_lift_ok, Program.wp_bind]
      cases written : m.writeResult D frame with
      | error message =>
          rw [written] at wrote
          exact (Program.wp_of_error wrote).mpr (m.same_disk _)
      | ok _ =>
          rw [written] at wrote
          rw [Program.wp_of_ok wrote, Program.wp_bind, Program.wp, run_readFrame]
          cases (D.read (m.diskAfter D frame) id (m.frames frame).data).1 with
          | error message => exact m.same_disk _
          | ok data => trivial

theorem exceptionSafe_fetchPage : ExceptionSafe D m (.fetchPage id) ↔ Endures D m (.fetchPage id) := by
  cases found : m.bufferPages id with
  | some frame =>
      refine iff_of_true (exceptionSafe_of_returns ?_) fun absent => ?_
      · simp only [serve, fetchPage, Program.run_get_bind, found]
        rfl
      · rw [found] at absent
        cases absent
  | none =>
      cases last : m.freePages.getLast? with
      | none =>
          refine iff_of_true (exceptionSafe_fetchPage_full found last) fun _ frame isLast => ?_
          rw [last] at isLast
          cases isLast
      | some frame =>
          rw [exceptionSafe_fetchPage_free found last]
          simp only [Endures, last, Option.some.injEq, forall_eq', found, forall_true_left]

/-- `Pin` comes first, so that what the disk throws leaves the frame pinned. -/
theorem run_renew (D : DiskManger δ) (m : DiskPool δ) (frame : Nat) :
    (renew D frame).run m =
      match m.writeResult D frame with
      | .ok _ =>
          (.ok frame, { ({ m.pin frame with disk := m.diskAfter D frame }).setFrame frame
            { isDirty := false, id := m.nextPageId, data := zeroPage } with
              nextPageId := m.nextPageId + 1 }.mapPage m.nextPageId frame)
      | .error message => (.error message, { m.pin frame with disk := m.diskAfter D frame }) := by
  have wrote : (writeIfDirty D frame).run (m.pin frame) =
      (m.writeResult D frame, { m.pin frame with disk := m.diskAfter D frame }) :=
    run_writeIfDirty D (m.pin frame) frame
  unfold renew
  rw [Program.run_modify_bind, Program.run_bind, wrote]
  cases m.writeResult D frame <;> rfl

theorem exceptionSafe_newPage : ExceptionSafe D m .newPage ↔ Endures D m .newPage := by
  cases last : m.freePages.getLast? with
  | some frame =>
      let popped : DiskPool δ := { m with freePages := m.freePages.dropLast }
      have ran : (newPage D).run m = (renew D frame).run popped := by
        simp only [newPage, Program.run_get_bind, last]
        rfl
      have renewed := run_renew D popped frame
      have next : m.nextFrame = some frame := by rw [nextFrame, last]
      simp only [Endures, next, Option.some.injEq, forall_eq', writesBack_iff]
      change (renew D frame).run popped = (match m.writeResult D frame with
        | .ok _ => _
        | .error message => _) at renewed
      cases written : m.writeResult D frame with
      | ok _ =>
          rw [written] at renewed
          refine iff_of_true (exceptionSafe_of_returns ?_) rfl
          rw [serve, ran, renewed]
          rfl
      | error message =>
          rw [written] at renewed
          refine iff_of_false (fun safe => ?_) (by simp)
          rw [exceptionSafe_iff_newPage, Program.wp, ran, renewed] at safe
          exact not_same_of_popped last rfl safe
  | none =>
      cases evicted : m.lruManager.evict with
      | error message =>
          have next : m.nextFrame = none := by rw [nextFrame, last, evicted]; rfl
          have ran : (newPage D).run m = (.error message, m) := by
            simp only [newPage, Program.run_get_bind, last, evicted]
            rfl
          refine iff_of_true (exceptionSafe_of_same ?_) ?_
          · rw [serve, ran]
            exact m.same_disk m.disk
          · simp [Endures, next]
      | ok frame =>
          have ran : (newPage D).run m = (renew D frame).run m := by
            simp only [newPage, Program.run_get_bind, last, evicted]
            rfl
          have renewed := run_renew D m frame
          have next : m.nextFrame = some frame := by rw [nextFrame, last, evicted]; rfl
          simp only [Endures, next, Option.some.injEq, forall_eq', writesBack_iff]
          cases written : m.writeResult D frame with
          | ok _ =>
              rw [written] at renewed
              refine iff_of_true (exceptionSafe_of_returns ?_) rfl
              rw [serve, ran, renewed]
              rfl
          | error message =>
              rw [written] at renewed
              refine iff_of_false (fun safe => ?_) (by simp)
              rw [exceptionSafe_iff_newPage, Program.wp, ran, renewed] at safe
              apply @not_same_of_pinCount _ _ frame _ _ safe
              simp [pin]

/-- The frame once its page is written. -/
def cleaned (D : DiskManger δ) (m : DiskPool δ) (frame : Nat) : DiskPool δ :=
  if (m.frames frame).isDirty then
    { m with disk := m.diskAfter D frame }.setDirty frame false
  else
    m

/-- The last one to let go frees the frame. -/
def vacate (m : DiskPool δ) (frame id : Nat) : DiskPool δ :=
  let m := { m with lruManager := m.lruManager.unPin frame }
  if m.lruManager.pinCount frame = 0 then
    { m with
      freePages := frame :: m.freePages
      bufferPages := Function.update m.bufferPages id none }
  else
    m

theorem run_release (found : m.bufferPages id = some frame) (works : m.WritesBack D frame) :
    (release D id).run m = (.ok ⟨⟩, (m.cleaned D frame).vacate frame id) := by
  simp only [release, Program.run_get_bind, found, Program.run_modify_bind, cleaned, diskAfter]
  cases dirty : (m.frames frame).isDirty with
  | false => rfl
  | true =>
      let unpinned : DiskPool δ := { m with lruManager := m.lruManager.unPin frame }
      have wrote : (writeFrame D frame).run unpinned =
          ((D.write m.disk (m.frames frame).id (m.frames frame).data).1, { unpinned with
            disk := (D.write m.disk (m.frames frame).id (m.frames frame).data).2 }) := rfl
      rw [works dirty] at wrote
      simp only [if_true]
      rw [Program.run_bind_of_ok wrote]
      rfl

theorem exceptionSafe_release : ExceptionSafe D m (.release id) ↔ Endures D m (.release id) := by
  rw [exceptionSafe_iff_release]
  unfold release
  rw [Program.wp_bind, Program.wp_get]
  cases found : m.bufferPages id with
  | none =>
      refine iff_of_true (m.same_disk m.disk) fun frame isFound => ?_
      rw [found] at isFound
      cases isFound
  | some frame =>
      simp only [Endures, found, Option.some.injEq, forall_eq', Program.wp_bind, Program.wp_modify]
      cases dirty : (m.frames frame).isDirty with
      | false =>
          refine iff_of_true trivial fun isDirty => ?_
          rw [dirty] at isDirty
          cases isDirty
      | true =>
          let unpinned : DiskPool δ := { m with lruManager := m.lruManager.unPin frame }
          have wrote : (writeFrame D frame).run unpinned =
              ((D.write m.disk (m.frames frame).id (m.frames frame).data).1, { unpinned with
                disk := (D.write m.disk (m.frames frame).id (m.frames frame).data).2 }) := rfl
          simp only [WritesBack, dirty, forall_true_left, if_true, Program.wp_bind]
          cases written : (D.write m.disk (m.frames frame).id (m.frames frame).data).1 with
          | ok _ =>
              rw [written] at wrote
              refine iff_of_true ?_ rfl
              rw [Program.wp_of_ok wrote]
              trivial
          | error message =>
              rw [written] at wrote
              refine iff_of_false (fun safe => ?_) (by simp)
              rw [Program.wp_of_error wrote] at safe
              apply @not_same_of_pinCount _ _ frame _ _ safe
              simp [unpinned]

/-- For every disk, every pool and every call: a call that throws leaves the pool as it was if
    and only if the disk does not fail behind a change. -/
theorem exceptionSafe_iff_endures (D : DiskManger δ) (m : DiskPool δ) (request : Request) :
    ExceptionSafe D m request ↔ Endures D m request := by
  cases request with
  | fetchPage id => exact exceptionSafe_fetchPage
  | newPage => exact exceptionSafe_newPage
  | release id => exact exceptionSafe_release

/-! ## No frame is lost -/

/-- The structures of the pool, over a disk that is a map. -/
def toManager (m : DiskPool δ) (disk : Nat → PageBytes) : BufferManager where
  disk := disk
  lruManager := m.lruManager
  maxPages := m.maxPages
  frames := m.frames
  freePages := m.freePages
  bufferPages := m.bufferPages
  nextPageId := m.nextPageId

theorem toManager_vacate (m : DiskPool δ) (frame id : Nat) (disk : Nat → PageBytes) :
    (m.vacate frame id).toManager disk = (m.toManager disk).vacate frame id := by
  simp only [vacate, BufferManager.vacate]
  split <;> rename_i last
  · exact (if_pos last).symm
  · exact (if_neg last).symm

/-- The pool with its disk, when that is a map. -/
def manager (m : DiskPool (Nat → PageBytes)) : BufferManager := m.toManager m.disk

section Steady

variable {m : DiskPool (Nat → PageBytes)}

theorem steady_writeIfDirty (m : DiskPool (Nat → PageBytes)) (frame : Nat) :
    ∃ m', (writeIfDirty steadyDisk frame).run m = (.ok ⟨⟩, m') ∧
      m'.manager = m.manager.writeIfDirty frame := by
  refine ⟨_, (run_writeIfDirty ..).trans (Prod.ext ?_ rfl), ?_⟩
  · unfold writeResult
    cases (m.frames frame).isDirty <;> rfl
  · change ({ m with disk := m.diskAfter steadyDisk frame } : DiskPool _).manager =
      if (m.frames frame).isDirty then m.manager.writeFrame frame else m.manager
    unfold diskAfter
    cases (m.frames frame).isDirty <;> rfl

theorem steady_readFrame (m : DiskPool (Nat → PageBytes)) (id frame : Nat) :
    ∃ m', (readFrame steadyDisk id frame).run m = (.ok ⟨⟩, m') ∧
      m'.manager = m.manager.readFrame id frame := ⟨_, run_readFrame .., rfl⟩

/-- Over the disk that never fails the calls are those of `BufferManager`. -/
theorem steady_fetchPage (m : DiskPool (Nat → PageBytes)) (id : Nat) :
    (BufferManager.fetchPage id).run m.manager =
      (((fetchPage steadyDisk id).run m).1, ((fetchPage steadyDisk id).run m).2.manager) := by
  cases found : m.bufferPages id with
  | some frame =>
      rw [BufferManager.run_fetchPage_mapped (m := m.manager) found]
      simp only [fetchPage, Program.run_get_bind, found]
      rfl
  | none =>
      cases last : m.freePages.getLast? with
      | some frame =>
          obtain ⟨m₁, wrote, same₁⟩ :=
            steady_writeIfDirty { m with freePages := m.freePages.dropLast } frame
          obtain ⟨m₂, read, same₂⟩ := steady_readFrame m₁ id frame
          rw [run_fetchPage_free found last, Program.run_bind_of_ok wrote,
            Program.run_bind_of_ok read]
          have absent : m.manager.bufferPages id = none := found
          have isLast : m.manager.freePages.getLast? = some frame := last
          simp only [BufferManager.fetchPage, BufferManager.loadPage, BufferManager.popFree,
            Program.run_get_bind, Program.run_bind_assoc, absent, isLast, Option.map_some]
          change (Except.ok frame, ((((({ m with freePages := m.freePages.dropLast } :
            DiskPool _).manager.writeIfDirty frame).readFrame id frame).pin frame).mapPage id
              frame).setPageId frame id) = (Except.ok frame,
                ((m₂.manager.pin frame).mapPage id frame).setPageId frame id)
          rw [same₂, same₁]
      | none =>
          have absent : m.manager.bufferPages id = none := found
          have full : m.manager.freePages.getLast? = none := last
          have listed : m.manager.lruManager.evict = m.lruManager.evict := rfl
          simp only [BufferManager.fetchPage, BufferManager.loadPage, BufferManager.popFree,
            fetchPage, Program.run_get_bind, Program.run_bind_assoc, absent, full, Option.map_none,
            found, last, listed]
          cases m.lruManager.evict with
          | error message => rfl
          | ok frame =>
              obtain ⟨m₁, wrote, same₁⟩ := steady_writeIfDirty m frame
              obtain ⟨m₂, read, same₂⟩ := steady_readFrame m₁ id frame
              have taken := @Program.run_lift (DiskPool (Nat → PageBytes)) String Nat (.ok frame) m
              rw [Program.run_bind_of_ok taken, Program.run_bind_of_ok wrote,
                Program.run_bind_of_ok read]
              change (Except.ok frame, (((((m.manager.writeIfDirty frame).readFrame id frame).setDirty
                frame false).pin frame).mapPage id frame).setPageId frame id) = (Except.ok frame,
                  (((m₂.manager.setDirty frame false).pin frame).mapPage id frame).setPageId frame id)
              rw [same₂, same₁]

/-- What `NewPage` makes of the frame that it has taken. -/
def renewed (m : BufferManager) (frame : Nat) : BufferManager :=
  { m.setFrame frame { isDirty := false, id := m.nextPageId, data := zeroPage } with
    nextPageId := m.nextPageId + 1 }.mapPage m.nextPageId frame

theorem steady_renew (m : DiskPool (Nat → PageBytes)) (frame : Nat) :
    ∃ m', (renew steadyDisk frame).run m = (.ok frame, m') ∧
      m'.manager = renewed ((m.manager.pin frame).writeIfDirty frame) frame := by
  obtain ⟨m₁, wrote, same⟩ := steady_writeIfDirty (m.pin frame) frame
  refine ⟨{ m₁.setFrame frame { isDirty := false, id := m₁.nextPageId, data := zeroPage } with
    nextPageId := m₁.nextPageId + 1 }.mapPage m₁.nextPageId frame, ?_, ?_⟩
  · unfold renew
    rw [Program.run_modify_bind, Program.run_bind_of_ok wrote]
    rfl
  · change renewed m₁.manager frame = _
    rw [same]
    rfl

theorem steady_newPage (m : DiskPool (Nat → PageBytes)) :
    BufferManager.newPage.run m.manager =
      (((newPage steadyDisk).run m).1, ((newPage steadyDisk).run m).2.manager) := by
  have listed : m.manager.lruManager.evict = m.lruManager.evict := rfl
  cases last : m.freePages.getLast? with
  | some frame =>
      have isLast : m.manager.freePages.getLast? = some frame := last
      obtain ⟨m', ran, same⟩ :=
        steady_renew { m with freePages := m.freePages.dropLast } frame
      have whole : (newPage steadyDisk).run m = (.ok frame, m') := by
        simp only [newPage, Program.run_get_bind, last]
        exact ran
      simp only [whole, same, BufferManager.newPage, BufferManager.takeFrame,
        BufferManager.popFree, Program.run_bind_assoc, Program.run_get_bind, isLast,
        Option.map_some]
      rfl
  | none =>
      have full : m.manager.freePages.getLast? = none := last
      simp only [BufferManager.newPage, BufferManager.takeFrame, BufferManager.popFree, newPage,
        Program.run_bind_assoc, Program.run_get_bind, full, Option.map_none, last, listed]
      cases m.lruManager.evict with
      | error message => rfl
      | ok frame =>
          obtain ⟨m', ran, same⟩ := steady_renew m frame
          have taken := @Program.run_lift (DiskPool (Nat → PageBytes)) String Nat (.ok frame) m
          rw [Program.run_bind_of_ok taken, ran]
          change (_, renewed ((m.manager.pin frame).writeIfDirty frame) frame) = _
          rw [same]

theorem steady_release (m : DiskPool (Nat → PageBytes)) (id : Nat) :
    (BufferManager.release id).run m.manager =
      (((release steadyDisk id).run m).1, ((release steadyDisk id).run m).2.manager) := by
  cases found : m.bufferPages id with
  | none =>
      have absent : m.manager.bufferPages id = none := found
      simp only [release, Program.run_get_bind, found]
      exact BufferManager.run_release_absent absent
  | some frame =>
      have isFound : m.manager.bufferPages id = some frame := found
      have ran := run_release (D := steadyDisk) found fun _ => rfl
      have disk : ((m.cleaned steadyDisk frame).vacate frame id).disk =
          (m.cleaned steadyDisk frame).disk := by
        simp only [vacate]
        split <;> rfl
      have clean : (m.cleaned steadyDisk frame).manager = m.manager.clean frame := by
        change _ = if (m.frames frame).isDirty then
          (m.manager.writeFrame frame).setDirty frame false else m.manager
        unfold cleaned diskAfter
        cases (m.frames frame).isDirty <;> rfl
      have ends : ((m.cleaned steadyDisk frame).vacate frame id).manager =
          (m.manager.clean frame).vacate frame id := by
        rw [manager, toManager_vacate, disk, ← clean]
        rfl
      rw [BufferManager.run_release isFound, ran, ← ends]

end Steady

/-- A page that is fetched has been drawn. -/
def Drawn (m : DiskPool δ) : Request → Prop
  | .fetchPage id => id < m.nextPageId
  | _ => True

variable {held : Nat → Nat} {disk : Nat → PageBytes}

/-- A call during which the disk does not fail behind a change keeps the structures together. -/
theorem inv_serve (inv : (m.toManager disk).Inv held) {request : Request}
    (endures : Endures D m request) (drawn : m.Drawn request) :
    ∃ held', ((m.serve D request).2.toManager disk).Inv held' := by
  cases request with
  | fetchPage id =>
      cases found : m.bufferPages id with
      | some frame =>
          refine ⟨_, (BufferManager.Inv.pin inv found).congr ?_ ?_ ?_ ?_ ?_⟩
          all_goals simp only [serve, fetchPage, Program.run_get_bind, found]; rfl
      | none =>
          cases last : m.freePages.getLast? with
          | some frame =>
              cases fetchPage_free_ends (D := D) found last with
              | inl failed => exact absurd (endures found frame last) failed.1
              | inr returned =>
                  obtain ⟨-, data, ran⟩ := returned
                  have occupied := inv.occupy last found (Nat.le_refl _) drawn
                  refine ⟨_, occupied.congr ?_ ?_ ?_ ?_ ?_⟩
                  all_goals rw [serve, ran]; rfl
          | none =>
              have full : m.freePages = [] := List.getLast?_eq_none_iff.mp last
              have empty := BufferManager.Inv.evict_of_full inv full
              change m.lruManager.evict = _ at empty
              refine ⟨held, inv.congr ?_ ?_ ?_ ?_ ?_⟩
              all_goals
                simp only [serve, fetchPage, Program.run_get_bind, found, last, empty]
                rfl
  | newPage =>
      cases last : m.freePages.getLast? with
      | some frame =>
          have next : m.nextFrame = some frame := by rw [nextFrame, last]
          have written := writesBack_iff.mp (endures frame next)
          let popped : DiskPool δ := { m with freePages := m.freePages.dropLast }
          have ran : (newPage D).run m = (renew D frame).run popped := by
            simp only [newPage, Program.run_get_bind, last]
            rfl
          have renewed := run_renew D popped frame
          change (renew D frame).run popped = (match m.writeResult D frame with
            | .ok _ => _
            | .error message => _) at renewed
          rw [written] at renewed
          have absent : m.bufferPages m.nextPageId = none := by
            by_contra present
            exact Nat.lt_irrefl _ (inv.known m.nextPageId present)
          have occupied := inv.occupy last absent (Nat.le_succ _) (Nat.lt_succ_self _)
          refine ⟨_, occupied.congr ?_ ?_ ?_ ?_ ?_⟩
          all_goals rw [serve, ran, renewed]; rfl
      | none =>
          have full : m.freePages = [] := List.getLast?_eq_none_iff.mp last
          have empty := BufferManager.Inv.evict_of_full inv full
          change m.lruManager.evict = _ at empty
          refine ⟨held, inv.congr ?_ ?_ ?_ ?_ ?_⟩
          all_goals
            simp only [serve, newPage, Program.run_get_bind, last, empty]
            rfl
  | release id =>
      cases found : m.bufferPages id with
      | none =>
          refine ⟨held, inv.congr ?_ ?_ ?_ ?_ ?_⟩
          all_goals
            simp only [serve, release, Program.run_get_bind, found]
            rfl
      | some frame =>
          have ran := run_release found (endures frame found)
          have cleaned : ((m.cleaned D frame).toManager disk).Inv held := by
            unfold DiskPool.cleaned
            split
            · exact inv.congr rfl rfl rfl rfl rfl
            · exact inv
          have isFound : ((m.cleaned D frame).toManager disk).bufferPages id = some frame := by
            unfold DiskPool.cleaned
            split <;> exact found
          refine ⟨Function.update held id (held id - 1), ?_⟩
          rw [serve, ran, serve.outcome, toManager_vacate]
          exact cleaned.vacate isFound

/-! ## Runs -/

/-- Calls in any order, those that throw included. -/
def step (D : DiskManger δ) (m : DiskPool δ) (request : Request) : Option (DiskPool δ) :=
  some (m.serve D request).2

/-- Every frame is free or mapped, and no two page ids are mapped to one frame. -/
structure FramesKept (m : DiskPool δ) : Prop where
  noneLost : ∀ frame < m.maxPages, frame ∈ m.freePages ∨ ∃ id, m.bufferPages id = some frame
  unaliased : ∀ id id' frame, m.bufferPages id = some frame → m.bufferPages id' = some frame →
    id = id'

/-- In a run of calls that are exception-safe, over a disk that may fail, no frame is lost and
    none is given to two pages. -/
theorem framesKept_of_exceptionSafe (inv : (m.toManager disk).Inv held) {requests : List Request}
    (safe : Transition.AllSteps (step D)
      (fun m request => ExceptionSafe D m request ∧ m.Drawn request) m requests) :
    Transition.AllStates (step D) FramesKept m requests := by
  have start : ∃ held, (m.toManager disk).Inv held := ⟨held, inv⟩
  apply @Transition.AllSteps.allStates _ _ _ (fun m => ∃ held, (m.toManager disk).Inv held) _ _ _ _
    safe start
  · rintro m ⟨held, inv⟩
    refine ⟨fun frame inPool => ?_, inv.unaliased⟩
    by_cases free : frame ∈ m.freePages
    · exact .inl free
    · exact .inr (inv.usedFrame frame inPool free)
  · rintro m request m' ⟨held, inv⟩ ⟨safe, drawn⟩ stepped
    obtain rfl := Option.some.inj stepped
    cases request with
    | fetchPage id => exact inv_serve inv (exceptionSafe_fetchPage.mp safe) drawn
    | newPage => exact inv_serve inv (exceptionSafe_newPage.mp safe) drawn
    | release id => exact inv_serve inv (exceptionSafe_release.mp safe) drawn

/-- The pool after its constructor, with the data file closed. -/
def closedPool : DiskPool PosixDisk where
  disk := ⟨false, .openFile []⟩
  frames _ := { data := zeroPage }
  freePages := List.range BUFFER_MAX_PAGE

/-- `FetchPage` throws and one of the 128 frames is gone. -/
theorem closedPool_loses_frame :
    ¬ ExceptionSafe posixDisk closedPool (.fetchPage META_PAGE_ID) ∧
      (closedPool.serve posixDisk (.fetchPage META_PAGE_ID)).2.freePages.length = 127 := by
  have last : closedPool.freePages.getLast? = some 127 := by decide
  have fails : ¬ closedPool.Reads posixDisk 127 META_PAGE_ID := by
    rintro ⟨data, read⟩
    cases read
  refine ⟨fun safe => ?_, ?_⟩
  · exact fails ((exceptionSafe_fetchPage_free rfl last).mp safe).2
  · cases @fetchPage_free_ends _ posixDisk closedPool META_PAGE_ID _ rfl last with
    | inl failed =>
        obtain ⟨-, message, disk, ran⟩ := failed
        rw [serve, ran]
        rfl
    | inr returned => exact absurd returned.1.2 fails

end DiskPool

end YourSQL
