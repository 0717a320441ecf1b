import Mathlib.Data.BitVec

/-! # Identifiers and record addresses

The integer types of `common/type.h` and the small structures that travel
between the page, undo, log and transaction layers. Identifiers come from
counters that only grow, so they are natural numbers here; flags keep the
16 bits of the record header.
-/

namespace YourSQL

def INVALID_TX_ID : Nat := 0
def INVALID_PAGE_ID : Nat := 0
def INVALID_LSN : Nat := 0
def META_PAGE_ID : Nat := 0
def PAGE_SIZE : Nat := 4096

/-- The bytes of a page. -/
abbrev PageBytes := { data : List UInt8 // data.length = PAGE_SIZE }

/-- Location of a record: its page and its slot number, counted from 1. -/
@[ext]
structure RID where
  pageId : Nat
  rowId : Nat
  deriving Repr, DecidableEq

/-- Location of an undo record: its page and its byte offset in that page. -/
structure UndoPointer where
  pageId : Nat
  slot : Nat
  deriving Repr, DecidableEq

def UndoPointer.null : UndoPointer := ⟨INVALID_PAGE_ID, 0⟩

def UndoPointer.isNull (pointer : UndoPointer) : Bool := pointer.pageId == 0

/-- The flag bits of a record header. -/
abbrev Flags := BitVec 16

def RECORD_DEL : Flags := 1
def RECORD_DEAD : Flags := 2

namespace Flags

def isDel (flags : Flags) : Bool := flags &&& RECORD_DEL != 0

def isDead (flags : Flags) : Bool := flags &&& RECORD_DEAD != 0

@[simp] theorem isDel_zero : isDel 0 = false := rfl

@[simp] theorem isDead_zero : isDead 0 = false := rfl

@[simp] theorem isDel_or_del (flags : Flags) : isDel (flags ||| RECORD_DEL) = true := by
  simp [isDel, RECORD_DEL, BitVec.eq_of_getLsbD_eq_iff]

@[simp] theorem isDead_or_del (flags : Flags) : isDead (flags ||| RECORD_DEL) = isDead flags := by
  rw [Bool.eq_iff_iff]
  simp [isDead, RECORD_DEL, RECORD_DEAD, BitVec.eq_of_getLsbD_eq_iff]
  grind

@[simp] theorem isDel_or_dead (flags : Flags) : isDel (flags ||| RECORD_DEAD) = isDel flags := by
  rw [Bool.eq_iff_iff]
  simp [isDel, RECORD_DEL, RECORD_DEAD, BitVec.eq_of_getLsbD_eq_iff]

@[simp] theorem isDead_or_dead (flags : Flags) : isDead (flags ||| RECORD_DEAD) = true := by
  simp [isDead, RECORD_DEAD, BitVec.eq_of_getLsbD_eq_iff]
  exact ⟨1, by omega, Or.inr rfl, rfl⟩

end Flags

end YourSQL
