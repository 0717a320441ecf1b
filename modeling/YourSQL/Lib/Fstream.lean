import Mathlib.Data.List.Basic

/-! # A binary file stream

A stream with one position for reading and writing and the two state bits that a
short read sets. While one of the bits is set, nothing is transferred. A write beyond
the end of the file fills the gap with zeros.
-/

structure Fstream where
  content : List UInt8
  pos : Nat := 0
  eofbit : Bool := false
  failbit : Bool := false
  deriving Repr, DecidableEq

namespace Fstream

def good (s : Fstream) : Bool := !s.eofbit && !s.failbit

def clear (s : Fstream) : Fstream := { s with eofbit := false, failbit := false }

/-- From the beginning of the file. A negative offset fails. -/
def seek (s : Fstream) (offset : Int) : Fstream :=
  if s.failbit then
    s
  else if offset < 0 then
    { s with failbit := true }
  else
    { s with pos := offset.toNat }

/-- Seeking the read position takes the end-of-file bit back first. -/
def seekg (s : Fstream) (offset : Int) : Fstream := { s with eofbit := false }.seek offset

/-- What the read puts over the beginning of `dest`, and the stream after it. -/
def read (s : Fstream) (n : Nat) (dest : List UInt8) : List UInt8 × Fstream :=
  if s.good then
    let got := (s.content.drop s.pos).take n
    let short := decide (got.length < n)
    (got ++ dest.drop got.length,
      { s with pos := s.pos + got.length, eofbit := short, failbit := short })
  else
    (dest, { s with failbit := true })

def overwrite (content : List UInt8) (pos : Nat) (data : List UInt8) : List UInt8 :=
  (content ++ List.replicate (pos - content.length) 0).take pos ++ data ++
    content.drop (pos + data.length)

def write (s : Fstream) (data : List UInt8) : Fstream :=
  if s.good then
    { s with content := overwrite s.content s.pos data, pos := s.pos + data.length }
  else
    s

/-- The bytes from an offset on, with zeros where the file has none. -/
def window (content : List UInt8) (offset n : Nat) : List UInt8 :=
  (List.range n).map fun i => content.getD (offset + i) 0

@[simp] theorem length_window (content : List UInt8) (offset n : Nat) :
    (window content offset n).length = n := by
  simp [window]

theorem length_overwrite (content : List UInt8) (pos : Nat) (data : List UInt8) :
    (overwrite content pos data).length = max content.length (pos + data.length) := by
  simp only [overwrite, List.length_append, List.length_take, List.length_replicate,
    List.length_drop]
  omega

theorem getD_overwrite (content : List UInt8) (pos : Nat) (data : List UInt8) (i : Nat) :
    (overwrite content pos data).getD i 0 =
      if pos ≤ i ∧ i < pos + data.length then data.getD (i - pos) 0 else content.getD i 0 := by
  have front : ((content ++ List.replicate (pos - content.length) 0).take pos).length = pos := by
    simp only [List.length_take, List.length_append, List.length_replicate]
    omega
  simp only [overwrite, List.append_assoc, List.getD_eq_getElem?_getD, List.getElem?_append, front]
  by_cases before : i < pos
  · rw [if_pos before, if_neg (by omega), List.getElem?_take, if_pos before, List.getElem?_append]
    split
    · rfl
    · rename_i beyond
      rw [List.getElem?_replicate, List.getElem?_eq_none (by omega : content.length ≤ i)]
      split <;> rfl
  · rw [if_neg before]
    by_cases inside : i < pos + data.length
    · rw [if_pos (by omega), if_pos (by omega)]
    · rw [if_neg (by omega), if_neg (by omega), List.getElem?_drop]
      congr 2
      omega

/-- A window that the file covers is what a read transfers. -/
theorem take_drop_eq_window {content : List UInt8} {offset n : Nat}
    (covered : offset + n ≤ content.length) : (content.drop offset).take n = window content offset n := by
  apply List.ext_getElem
  · simp only [List.length_take, List.length_drop, length_window]
    omega
  · intro i here there
    have bound : offset + i < content.length := by
      simp only [length_window] at there
      omega
    simp [window, List.getD_eq_getElem?_getD, bound]

theorem window_overwrite_self (content : List UInt8) (pos : Nat) (data : List UInt8) :
    window (overwrite content pos data) pos data.length = data := by
  apply List.ext_getElem
  · simp
  · intro i here there
    simp only [window, List.getElem_map, List.getElem_range, getD_overwrite]
    rw [if_pos (by omega), Nat.add_sub_cancel_left, List.getD_eq_getElem?_getD,
      List.getElem?_eq_getElem there, Option.getD_some]

theorem window_overwrite_of_disjoint (content : List UInt8) {pos : Nat} {data : List UInt8}
    {offset n : Nat} (apart : offset + n ≤ pos ∨ pos + data.length ≤ offset) :
    window (overwrite content pos data) offset n = window content offset n := by
  apply List.map_congr_left
  intro i member
  rw [List.mem_range] at member
  rw [getD_overwrite, if_neg (by omega)]

theorem good_iff {s : Fstream} : s.good = true ↔ s.eofbit = false ∧ s.failbit = false := by
  simp [good]

@[simp] theorem good_clear (s : Fstream) : s.clear.good = true := rfl

theorem seek_of_nat {s : Fstream} (fail : s.failbit = false) (offset : Nat) :
    s.seek offset = { s with pos := offset } := by
  unfold seek
  rw [fail, if_neg Bool.false_ne_true, if_neg (by omega), Int.toNat_natCast]

theorem seekg_of_nat {s : Fstream} (fail : s.failbit = false) (offset : Nat) :
    s.seekg offset = { s with pos := offset, eofbit := false } :=
  @seek_of_nat { s with eofbit := false } fail offset

theorem write_of_good {s : Fstream} (good : s.good = true) (data : List UInt8) :
    s.write data = { s with
      content := overwrite s.content s.pos data
      pos := s.pos + data.length } := if_pos good

/-- A read that the file covers fills the destination, and the stream stays good. -/
theorem read_of_covered {s : Fstream} {n : Nat} (good : s.good = true)
    (covered : s.pos + n ≤ s.content.length) {dest : List UInt8} (sized : dest.length = n) :
    s.read n dest = (window s.content s.pos n, { s with pos := s.pos + n }) := by
  obtain ⟨eof, fail⟩ := good_iff.mp good
  have taken : dest.drop n = [] := List.drop_eq_nil_of_le (Nat.le_of_eq sized)
  unfold read
  rw [if_pos good, take_drop_eq_window covered]
  simp only [length_window, Nat.lt_irrefl, decide_false, taken, List.append_nil, eof, fail]

/-- A read that begins beyond the end leaves the destination as it is. -/
theorem seekg_read_of_beyond {s : Fstream} {offset : Nat} (beyond : s.content.length ≤ offset)
    (n : Nat) (dest : List UInt8) : ((s.seekg offset).read n dest).1 = dest := by
  by_cases fail : s.failbit = true
  · simp [seekg, seek, fail, read, Fstream.good]
  · rw [Bool.not_eq_true] at fail
    have nothing : s.content.drop offset = [] := List.drop_eq_nil_of_le beyond
    unfold read
    rw [seekg_of_nat fail]
    split
    · simp [nothing]
    · rfl

/-- Such a read breaks the stream, and on a broken stream nothing is read. -/
theorem failbit_of_beyond {s : Fstream} {offset n : Nat} (beyond : s.content.length ≤ offset)
    (positive : 0 < n) (dest : List UInt8) : ((s.seekg offset).read n dest).2.failbit = true := by
  by_cases fail : s.failbit = true
  · simp [seekg, seek, fail, read, Fstream.good]
  · rw [Bool.not_eq_true] at fail
    have nothing : s.content.drop offset = [] := List.drop_eq_nil_of_le beyond
    unfold read
    rw [seekg_of_nat fail]
    split
    · simp [nothing, positive]
    · rfl

theorem read_of_failbit {s : Fstream} (fail : s.failbit = true) (offset : Int) (n : Nat)
    (dest : List UInt8) : ((s.seekg offset).read n dest).1 = dest := by
  simp [seekg, seek, fail, read, Fstream.good]

theorem length_read (s : Fstream) {n : Nat} {dest : List UInt8} (room : n ≤ dest.length) :
    (s.read n dest).1.length = dest.length := by
  unfold read
  split
  · simp only [List.length_append, List.length_drop, List.length_take]
    omega
  · rfl

@[simp] theorem content_seekg (s : Fstream) (offset : Int) :
    (s.seekg offset).content = s.content := by
  unfold seekg seek
  split
  · rfl
  · split <;> rfl

@[simp] theorem content_read (s : Fstream) (n : Nat) (dest : List UInt8) :
    (s.read n dest).2.content = s.content := by
  unfold read
  split <;> rfl

end Fstream
