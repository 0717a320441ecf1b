import YourSQL.Common.Types
import YourSQL.Lib.Fstream
import YourSQL.Lib.Transition

/-! # The data file as a map of pages

`PosixDiskManager` keeps one stream open and seeks to a page before each access.
`Write` clears the state bits of the stream first and `Read` does not: a page beyond
the end of the file is not read as zeros, and no page is read after that until the
next write.
-/

namespace YourSQL

structure PosixDiskManager where
  fs : Fstream
  deriving Repr, DecidableEq

namespace PosixDiskManager

/-- `page_id * PAGE_SIZE` in 64 bits, taken for a signed stream offset. -/
def offset (pageId : Nat) : Int :=
  let offset : Nat := pageId * PAGE_SIZE % 2 ^ 64
  if offset < 2 ^ 63 then offset else (offset : Int) - 2 ^ 64

/-- `Read`, into a frame that holds `page`. -/
def read (disk : PosixDiskManager) (pageId : Nat) (page : PageBytes) :
    PageBytes × PosixDiskManager :=
  let fs := disk.fs.seekg (offset pageId)
  (⟨(fs.read PAGE_SIZE page.val).1, by rw [Fstream.length_read fs page.property.ge, page.property]⟩,
    ⟨(fs.read PAGE_SIZE page.val).2⟩)

/-- `Write`. -/
def write (disk : PosixDiskManager) (pageId : Nat) (page : PageBytes) : PosixDiskManager :=
  ⟨(disk.fs.clear.seek (offset pageId)).write page.val⟩

/-- The stream of the constructor, over a file with some content. -/
def openFile (content : List UInt8) : PosixDiskManager := ⟨{ content := content }⟩

theorem offset_eq {pageId : Nat} (small : pageId * PAGE_SIZE < 2 ^ 63) :
    offset pageId = (pageId * PAGE_SIZE : Nat) := by
  unfold offset
  rw [Nat.mod_eq_of_lt (by omega)]
  exact if_pos small

/-- A write goes through whatever state the stream was in. -/
theorem fs_write (disk : PosixDiskManager) {pageId : Nat} (small : pageId * PAGE_SIZE < 2 ^ 63)
    (page : PageBytes) : (disk.write pageId page).fs =
      { disk.fs.clear with
        content := Fstream.overwrite disk.fs.content (pageId * PAGE_SIZE) page.val
        pos := pageId * PAGE_SIZE + page.val.length } := by
  unfold write
  rw [offset_eq small, Fstream.seek_of_nat rfl, Fstream.write_of_good rfl]
  rfl

end PosixDiskManager

/-- A page of zeros. -/
def zeroPage : PageBytes := ⟨List.replicate PAGE_SIZE 0, List.length_replicate ..⟩

def onePage : PageBytes := ⟨List.replicate PAGE_SIZE 1, List.length_replicate ..⟩

theorem zeroPage_ne_onePage : zeroPage ≠ onePage := by
  intro same
  have heads := congrArg (fun page : PageBytes => page.val.head?) same
  simp only [zeroPage, onePage, List.head?_replicate] at heads
  exact absurd heads (by decide)

/-- The page at its place in the file, with zeros where the file has no bytes. -/
def pageIn (content : List UInt8) (pageId : Nat) : PageBytes :=
  ⟨Fstream.window content (pageId * PAGE_SIZE) PAGE_SIZE, Fstream.length_window ..⟩

inductive DiskCall where
  | read (pageId : Nat)
  | write (pageId : Nat) (page : PageBytes)
  deriving Repr, DecidableEq

def DiskCall.pageId : DiskCall → Nat
  | read pageId => pageId
  | write pageId _ => pageId

/-- The disk manager beside what was last written to each page. -/
structure DiskRun where
  disk : PosixDiskManager
  lastWritten : Nat → PageBytes

namespace DiskRun

/-- A file in use for the first time: what it holds counts as written. -/
def start (content : List UInt8) : DiskRun := ⟨.openFile content, pageIn content⟩

/-- What a read does to the stream does not depend on the frame. -/
def step (run : DiskRun) (call : DiskCall) : Option DiskRun :=
  match call with
  | .read pageId => some { run with disk := (run.disk.read pageId zeroPage).2 }
  | .write pageId page =>
      some ⟨run.disk.write pageId page, Function.update run.lastWritten pageId page⟩

/-- A read fills any frame with what was last written to the page. -/
def ReadsBack (run : DiskRun) : DiskCall → Prop
  | .read pageId => ∀ page, (run.disk.read pageId page).1 = run.lastWritten pageId
  | .write _ _ => True

/-- A read is of a page in front of the end of the file. -/
def InFile (run : DiskRun) : DiskCall → Prop
  | .read pageId => pageId * PAGE_SIZE < run.disk.fs.content.length
  | .write _ _ => True

/-- The file is a map of pages, and the stream is in a good state. -/
structure Inv (run : DiskRun) : Prop where
  good : run.disk.fs.good = true
  aligned : PAGE_SIZE ∣ run.disk.fs.content.length
  pages : ∀ pageId, pageId * PAGE_SIZE < 2 ^ 63 →
    pageIn run.disk.fs.content pageId = run.lastWritten pageId

theorem inv_start {content : List UInt8} (wellFormed : PAGE_SIZE ∣ content.length) :
    Inv (start content) := ⟨rfl, wellFormed, fun _ _ => rfl⟩

variable {run run' : DiskRun} {pageId : Nat}

/-- In a file of whole pages a page that begins in the file ends in it. -/
theorem Inv.covered (inv : Inv run) (inFile : pageId * PAGE_SIZE < run.disk.fs.content.length) :
    pageId * PAGE_SIZE + PAGE_SIZE ≤ run.disk.fs.content.length := by
  obtain ⟨count, whole⟩ := inv.aligned
  rw [whole, Nat.mul_comm PAGE_SIZE] at inFile ⊢
  have below : pageId < count := Nat.lt_of_mul_lt_mul_right inFile
  calc pageId * PAGE_SIZE + PAGE_SIZE = (pageId + 1) * PAGE_SIZE := by rw [Nat.succ_mul]
    _ ≤ count * PAGE_SIZE := Nat.mul_le_mul_right _ below

theorem Inv.read (inv : Inv run) (small : pageId * PAGE_SIZE < 2 ^ 63)
    (inFile : pageId * PAGE_SIZE < run.disk.fs.content.length) (page : PageBytes) :
    run.disk.read pageId page = (run.lastWritten pageId,
      ⟨{ run.disk.fs with pos := pageId * PAGE_SIZE + PAGE_SIZE }⟩) := by
  obtain ⟨eof, fail⟩ := Fstream.good_iff.mp inv.good
  have seek : run.disk.fs.seekg (PosixDiskManager.offset pageId) =
      { run.disk.fs with pos := pageId * PAGE_SIZE } := by
    rw [PosixDiskManager.offset_eq small, Fstream.seekg_of_nat fail, ← eof]
  have done := @Fstream.read_of_covered { run.disk.fs with pos := pageId * PAGE_SIZE } PAGE_SIZE
    inv.good (inv.covered inFile) page.val page.property
  have same := inv.pages pageId small
  simp only [PosixDiskManager.read, seek, done, Prod.mk.injEq, and_true]
  exact same

/-- Under the invariant a read is right exactly in front of the end of the file. -/
theorem Inv.readsBack_iff (inv : Inv run) {call : DiskCall}
    (small : call.pageId * PAGE_SIZE < 2 ^ 63) : run.ReadsBack call ↔ run.InFile call := by
  cases call with
  | write pageId page => exact Iff.rfl
  | read pageId =>
      have small : pageId * PAGE_SIZE < 2 ^ 63 := small
      constructor
      · intro readsBack
        by_contra beyond
        have kept : ∀ page : PageBytes, run.lastWritten pageId = page := by
          intro page
          rw [← readsBack page]
          apply Subtype.ext
          simp only [PosixDiskManager.read, PosixDiskManager.offset_eq small]
          exact Fstream.seekg_read_of_beyond (not_lt.mp beyond) PAGE_SIZE page.val
        exact zeroPage_ne_onePage ((kept zeroPage).symm.trans (kept onePage))
      · intro inFile page
        rw [inv.read small inFile]

theorem Inv.step (inv : Inv run) {call : DiskCall} (small : call.pageId * PAGE_SIZE < 2 ^ 63)
    (readsBack : run.ReadsBack call) (taken : run.step call = some run') : Inv run' := by
  cases call with
  | read pageId =>
      have inFile := (inv.readsBack_iff small).mp readsBack
      obtain rfl := Option.some.inj taken
      have small : pageId * PAGE_SIZE < 2 ^ 63 := small
      rw [inv.read small inFile]
      exact ⟨inv.good, inv.aligned, inv.pages⟩
  | write pageId page =>
      have small : pageId * PAGE_SIZE < 2 ^ 63 := small
      obtain rfl := Option.some.inj taken
      have written := run.disk.fs_write small page
      refine ⟨?_, ?_, ?_⟩
      · rw [written]
        rfl
      · rw [written]
        simp only [Fstream.length_overwrite, page.property]
        rcases max_choice run.disk.fs.content.length (pageId * PAGE_SIZE + PAGE_SIZE) with
          same | same
        · rw [same]
          exact inv.aligned
        · rw [same, ← Nat.succ_mul]
          exact Nat.dvd_mul_left ..
      · intro other otherSmall
        rw [written]
        apply Subtype.ext
        by_cases same : other = pageId
        · have self := Fstream.window_overwrite_self run.disk.fs.content (pageId * PAGE_SIZE) page.val
          rw [page.property] at self
          simpa [pageIn, same] using self
        · have kept := congrArg Subtype.val (inv.pages other otherSmall)
          simp only [pageIn] at kept ⊢
          rw [Fstream.window_overwrite_of_disjoint, kept, Function.update_of_ne same]
          rw [page.property]
          rcases Nat.lt_or_gt_of_ne same with below | above
          · exact .inl (by
              calc other * PAGE_SIZE + PAGE_SIZE = (other + 1) * PAGE_SIZE := by rw [Nat.succ_mul]
                _ ≤ pageId * PAGE_SIZE := Nat.mul_le_mul_right _ below)
          · exact .inr (by
              calc pageId * PAGE_SIZE + PAGE_SIZE = (pageId + 1) * PAGE_SIZE := by rw [Nat.succ_mul]
                _ ≤ other * PAGE_SIZE := Nat.mul_le_mul_right _ above)

/-- Reads give back what was written in exactly the runs that read no page beyond the end
    of the file, for pages whose place in the file a stream can seek to. -/
theorem readsBack_iff_inFile {content : List UInt8} (wellFormed : PAGE_SIZE ∣ content.length)
    (calls : List DiskCall) (small : ∀ call ∈ calls, call.pageId * PAGE_SIZE < 2 ^ 63) :
    Transition.AllSteps step ReadsBack (start content) calls ↔
      Transition.AllSteps step InFile (start content) calls := by
  apply Transition.allSteps_congr (inv_start wellFormed)
  · intro run call member run' inv readsBack taken
    exact inv.step (small call member) readsBack taken
  · intro run call member inv
    exact inv.readsBack_iff (small call member)

theorem readsBack_iff_inFile_onePage :
    Transition.AllSteps step ReadsBack (start []) [.write 0 zeroPage, .read 0] ↔
      Transition.AllSteps step InFile (start []) [.write 0 zeroPage, .read 0] :=
  readsBack_iff_inFile (dvd_zero _) _ (by decide)

/-- On a broken stream no page is read. -/
theorem not_readsBack_of_failbit (fail : run.disk.fs.failbit = true) (pageId : Nat) :
    ¬ run.ReadsBack (.read pageId) := by
  intro readsBack
  have kept : ∀ page, run.lastWritten pageId = page := fun page =>
    (readsBack page).symm.trans (Subtype.ext (Fstream.read_of_failbit fail _ _ page.val))
  exact zeroPage_ne_onePage ((kept zeroPage).symm.trans (kept onePage))

/-- In a file of one page, page 0 is not read any more once page 1 has been. -/
theorem readBeyond_spoils_later_reads :
    ¬ Transition.AllSteps step ReadsBack (start zeroPage.val) [.read 1, .read 0] ∧
      ∃ run, Transition.run step (start zeroPage.val) [.read 1] = some run ∧
        run.InFile (.read 0) ∧ ¬ run.ReadsBack (.read 0) := by
  let run : DiskRun :=
    { start zeroPage.val with disk := ((start zeroPage.val).disk.read 1 zeroPage).2 }
  have fail : run.disk.fs.failbit = true :=
    Fstream.failbit_of_beyond zeroPage.property.le (by decide) zeroPage.val
  have spoiled := run.not_readsBack_of_failbit fail 0
  refine ⟨fun obeyed => spoiled (obeyed.2 run rfl).1, run, rfl, ?_, spoiled⟩
  have same : run.disk.fs.content = zeroPage.val :=
    (Fstream.content_read ..).trans (Fstream.content_seekg ..)
  show 0 * PAGE_SIZE < run.disk.fs.content.length
  rw [same, zeroPage.property]
  decide

end DiskRun

end YourSQL
