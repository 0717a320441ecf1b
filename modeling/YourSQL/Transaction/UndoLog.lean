import YourSQL.Buffer.Database

/-! # The undo log

Undo records are appended to one page after the other. The manager only remembers
the page it appended to last.
-/

namespace YourSQL

/-- page_id, lsn and free_offset. -/
def UNDO_HEADER_SIZE : Nat := 20

/-- old_roll_ptr, old_trx_id and payload_size. -/
def UNDO_RECORD_OVERHEAD : Nat := 24

/-- The order in which undo records are appended: one page after the other, and on a page
    from the front to the back. -/
def UndoPointer.Before (earlier later : UndoPointer) : Prop :=
  earlier.pageId < later.pageId ∨ earlier.pageId = later.pageId ∧ earlier.slot < later.slot

/-- Behind every undo record there is. -/
def UndoPointer.IsNext (undo : UndoPointer → Option Record) (pointer : UndoPointer) : Prop :=
  ∀ other older, undo other = some older → other.Before pointer

namespace UndoPointer

variable {pointer : UndoPointer} {undo : UndoPointer → Option Record}

theorem not_before_self (pointer : UndoPointer) : ¬ pointer.Before pointer := by
  unfold Before
  omega

theorem before_wf : WellFounded Before := by
  have lex : WellFounded fun earlier later : UndoPointer =>
      Prod.Lex (· < ·) (· < ·) (earlier.pageId, earlier.slot) (later.pageId, later.slot) :=
    InvImage.wf (fun pointer : UndoPointer => (pointer.pageId, pointer.slot))
      (Prod.lex ⟨_, Nat.lt_wfRel.wf⟩ ⟨_, Nat.lt_wfRel.wf⟩).wf
  refine Subrelation.wf ?_ lex
  intro earlier later before
  exact Prod.lex_def.mpr before

theorem IsNext.unused (next : pointer.IsNext undo) : undo pointer = none := by
  cases found : undo pointer with
  | none => rfl
  | some older => exact absurd (next pointer older found) pointer.not_before_self

end UndoPointer

namespace UndoImage

/-- `Load`: a page whose header was never written counts as empty. -/
def load (image : UndoImage) : UndoImage :=
  if image.freeOffset < UNDO_HEADER_SIZE then
    { image with freeOffset := UNDO_HEADER_SIZE }
  else
    image

def initNew (pageId : Nat) : UndoImage := { pageId := pageId, freeOffset := UNDO_HEADER_SIZE }

def hasSpaceFor (image : UndoImage) (payloadSize : Nat) : Bool :=
  image.freeOffset + (UNDO_RECORD_OVERHEAD + payloadSize) ≤ PAGE_SIZE

/-- `AppendRecord`, once there is space. -/
def append (image : UndoImage) (record : UndoLogRecord) : UndoImage :=
  { image with
    freeOffset := image.freeOffset + (UNDO_RECORD_OVERHEAD + record.payload.size)
    records := image.records ++ [(image.freeOffset, record)] }

def readRecord (image : UndoImage) (offset : Nat) : Option UndoLogRecord :=
  (image.records.find? fun entry => entry.1 == offset).map Prod.snd

end UndoImage

/-- A new undo page with its header written. -/
def newUndoPage : Exec Nat := do
  let id ← newPage
  modify fun s =>
    { s.setPage id (.undo (.initNew id)) with undoLog := some { undoPageId := id } }
  return id

/-- The page that was appended to last, or the first one. -/
def openUndoPage (undoLog : UndoLogManager) : Exec Nat := do
  if undoLog.undoPageId = INVALID_PAGE_ID then
    newUndoPage
  else
    fetchPage undoLog.undoPageId
    return undoLog.undoPageId

/-- A new page, where the open one has no space for the record. -/
def makeUndoRoom (pageId : Nat) (payloadSize : Nat) : Exec Nat := do
  let s ← get
  if (s.page pageId).asUndo.load.hasSpaceFor payloadSize then
    return pageId
  else
    release pageId
    newUndoPage

/-- `AppendUndoRecord`. -/
def appendUndoRecord (undoLog : UndoLogManager) (record : UndoLogRecord) : Exec UndoPointer := do
  let pageId ← openUndoPage undoLog
  let pageId ← makeUndoRoom pageId record.payload.size
  let s ← get
  let image := (s.page pageId).asUndo.load
  if !image.hasSpaceFor record.payload.size then
    release pageId
    throw "UndoLogManager::AppendUndoRecord fail."
  modify fun s => s.setPage pageId (.undo (image.append record))
  release pageId
  return ⟨pageId, image.freeOffset⟩

/-- `GetUndoRecord`. Where no record starts, nothing is modelled of what is read. -/
def getUndoRecord (pointer : UndoPointer) : Exec (Option Record) := do
  fetchPage pointer.pageId
  let image := ((← get).page pointer.pageId).asUndo.load
  let record := image.readRecord pointer.slot
  release pointer.pageId
  return record.map UndoLogRecord.payload

end YourSQL
