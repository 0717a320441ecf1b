import YourSQL.Buffer.LRUManager
import YourSQL.Lib.Program
import YourSQL.Storage.PosixDiskManager

/-! # The buffer pool

Frames, the list of free frames, the map from page ids to frames and the replacement
policy, as the calls of `BufferManager` change them. The disk is a map of pages.
-/

namespace YourSQL

def BUFFER_MAX_PAGE : Nat := 128

/-- The `Page` in a frame of the pool. -/
structure Frame where
  isDirty : Bool := false
  id : Nat := 0
  data : PageBytes
  deriving Repr, DecidableEq

structure BufferManager where
  disk : Nat → PageBytes
  lruManager : LRUManager := {}
  maxPages : Nat := BUFFER_MAX_PAGE
  frames : Nat → Frame
  /-- The back is where frames are taken from. -/
  freePages : List Nat
  bufferPages : Nat → Option Nat := fun _ => none
  /-- `page_id_` of the process. -/
  nextPageId : Nat := 1

namespace BufferManager

abbrev Call := Program BufferManager String

/-- The constructor; what is in the frames is whatever the allocation left there. -/
def create (disk : Nat → PageBytes) (maxPages : Nat) (frames : Nat → PageBytes)
    (nextPageId : Nat) : BufferManager where
  disk := disk
  maxPages := maxPages
  frames frame := { data := frames frame }
  freePages := List.range maxPages
  nextPageId := nextPageId

def setFrame (m : BufferManager) (frame : Nat) (page : Frame) : BufferManager :=
  { m with frames := Function.update m.frames frame page }

def mapPage (m : BufferManager) (id frame : Nat) : BufferManager :=
  { m with bufferPages := Function.update m.bufferPages id (some frame) }

/-- `disk_manager_->Write` of a frame. -/
def writeFrame (m : BufferManager) (frame : Nat) : BufferManager :=
  { m with disk := Function.update m.disk (m.frames frame).id (m.frames frame).data }

def writeIfDirty (m : BufferManager) (frame : Nat) : BufferManager :=
  if (m.frames frame).isDirty then m.writeFrame frame else m

/-- `disk_manager_->Read` into a frame. -/
def readFrame (m : BufferManager) (id frame : Nat) : BufferManager :=
  m.setFrame frame { m.frames frame with data := m.disk id }

def setDirty (m : BufferManager) (frame : Nat) (isDirty : Bool) : BufferManager :=
  m.setFrame frame { m.frames frame with isDirty := isDirty }

def setPageId (m : BufferManager) (frame id : Nat) : BufferManager :=
  m.setFrame frame { m.frames frame with id := id }

def pin (m : BufferManager) (frame : Nat) : BufferManager :=
  { m with lruManager := m.lruManager.pin frame }

/-- `free_pages_.back()` with `pop_back`, if there is one. -/
def popFree (m : BufferManager) : Option (Nat × BufferManager) :=
  m.freePages.getLast?.map fun frame => (frame, { m with freePages := m.freePages.dropLast })

def flush (id : Nat) : Call Unit := do
  let m ← get
  match m.bufferPages id with
  | none => throw "BufferManager::Flush: Page not found"
  | some frame =>
      if (m.frames frame).isDirty then
        modify fun m => (m.writeFrame frame).setDirty frame false

def release (id : Nat) : Call Unit := do
  let m ← get
  match m.bufferPages id with
  | none => throw "BufferManager::Release: Page not found"
  | some frame =>
      modify fun m => { m with lruManager := m.lruManager.unPin frame }
      if (m.frames frame).isDirty then
        modify fun m => (m.writeFrame frame).setDirty frame false
      modify fun m =>
        if m.lruManager.pinCount frame = 0 then
          { m with
            freePages := frame :: m.freePages
            bufferPages := Function.update m.bufferPages id none }
        else
          m

/-- The frame that `NewPage` takes, pinned, with what was dirty in it on disk. -/
def takeFrame : Call Nat := do
  let m ← get
  match m.popFree with
  | some (frame, m) =>
      set ((m.pin frame).writeIfDirty frame)
      return frame
  | none =>
      let frame ← Program.lift m.lruManager.evict
      set ((m.pin frame).writeIfDirty frame)
      return frame

def newPage : Call Nat := do
  let frame ← takeFrame
  modify fun m =>
    { m.setFrame frame { isDirty := false, id := m.nextPageId, data := zeroPage } with
      nextPageId := m.nextPageId + 1 }.mapPage m.nextPageId frame
  return frame

/-- The two ways to get a page that is not in the pool. Only the second one clears the
    dirty flag. -/
def loadPage (id : Nat) : Call Nat := do
  let m ← get
  match m.popFree with
  | some (frame, m) =>
      set ((((m.writeIfDirty frame).readFrame id frame).pin frame).mapPage id frame)
      return frame
  | none =>
      let frame ← Program.lift m.lruManager.evict
      set (((((m.writeIfDirty frame).readFrame id frame).setDirty frame false).pin frame).mapPage
        id frame)
      return frame

def fetchPage (id : Nat) : Call Nat := do
  let m ← get
  match m.bufferPages id with
  | some frame =>
      set ((m.pin frame).setPageId frame id)
      return frame
  | none =>
      let frame ← loadPage id
      modify fun m => m.setPageId frame id
      return frame

def touchPage (id : Nat) : Call Unit := do
  let m ← get
  match m.bufferPages id with
  | none => throw "BufferManager::TouchPage: Page not found"
  | some frame => set { m with lruManager := m.lruManager.touch frame }

end BufferManager

end YourSQL
