import Mathlib.Data.List.Basic

/-! # The WAL file

`LogDiskManager` opens the file in append mode and keeps what it finds there: a
write lands behind the last byte, whatever that byte belongs to.
-/

namespace YourSQL

structure LogDiskManager where
  file : List UInt8
  deriving Repr, DecidableEq

namespace LogDiskManager

/-- The constructor: an absent file is created empty, an existing one is left as it is. -/
def openFile (existing : Option (List UInt8)) : LogDiskManager := ⟨existing.getD []⟩

def write (disk : LogDiskManager) (data : List UInt8) : LogDiskManager :=
  { disk with file := disk.file ++ data }

def readAll (disk : LogDiskManager) : List UInt8 := disk.file

def size (disk : LogDiskManager) : Nat := disk.file.length

/-- A series of writes, as one process makes them. -/
def writes (disk : LogDiskManager) (batches : List (List UInt8)) : LogDiskManager :=
  batches.foldl write disk

@[simp] theorem openFile_some (file : List UInt8) : (openFile (some file)).file = file := rfl

@[simp] theorem openFile_none : (openFile none).file = [] := rfl

@[simp] theorem write_file (disk : LogDiskManager) (data : List UInt8) :
    (disk.write data).file = disk.file ++ data := rfl

@[simp] theorem readAll_eq (disk : LogDiskManager) : disk.readAll = disk.file := rfl

/-- Writes only append, so a file keeps everything it ever held as a prefix. -/
@[simp] theorem writes_file (disk : LogDiskManager) (batches : List (List UInt8)) :
    (disk.writes batches).file = disk.file ++ batches.flatten := by
  induction batches generalizing disk with
  | nil => simp [writes]
  | cons data rest ih =>
      have step : disk.writes (data :: rest) = (disk.write data).writes rest := rfl
      rw [step, ih, write_file, List.flatten_cons, List.append_assoc]

end LogDiskManager

end YourSQL
