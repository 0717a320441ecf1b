import Mathlib.Algebra.Group.Nat.Defs
import Mathlib.Data.List.Basic

/-! # Little-endian byte fields

Fixed-width numbers as `memcpy` leaves them in a buffer on a little-endian
machine, and the fields read back from a buffer at an offset.
-/

namespace Bytes

/-- The `width` low bytes of a number, least significant byte first. -/
def ofNat : (width : Nat) → Nat → List UInt8
  | 0, _ => []
  | width + 1, n => UInt8.ofNat n :: ofNat width (n / 256)

def toNat : List UInt8 → Nat
  | [] => 0
  | byte :: rest => byte.toNat + 256 * toNat rest

/-- The `width` bytes of a buffer that start at `offset`. -/
def field (buffer : List UInt8) (offset width : Nat) : List UInt8 :=
  (buffer.drop offset).take width

@[simp] theorem length_ofNat (width n : Nat) : (ofNat width n).length = width := by
  induction width generalizing n with
  | zero => rfl
  | succ width ih => simp only [ofNat, List.length_cons, ih]

theorem toNat_ofNat (width n : Nat) : toNat (ofNat width n) = n % 256 ^ width := by
  induction width generalizing n with
  | zero => simp [ofNat, toNat, Nat.mod_one]
  | succ width ih =>
      have split : n % 256 ^ (width + 1) = n % 256 + 256 * (n / 256 % 256 ^ width) := by
        rw [Nat.pow_succ', Nat.mod_mul]
      rw [ofNat, toNat, ih, UInt8.toNat_ofNat', split]

theorem toNat_ofNat_of_lt {width n : Nat} (small : n < 256 ^ width) :
    toNat (ofNat width n) = n := by
  rw [toNat_ofNat, Nat.mod_eq_of_lt small]

theorem toNat_lt (bytes : List UInt8) : toNat bytes < 256 ^ bytes.length := by
  induction bytes with
  | nil => exact Nat.one_pos
  | cons byte rest ih =>
      have low := byte.toNat_lt
      simp only [toNat, List.length_cons, Nat.pow_succ']
      omega

theorem ofNat_toNat (bytes : List UInt8) : ofNat bytes.length (toNat bytes) = bytes := by
  induction bytes with
  | nil => rfl
  | cons byte rest ih =>
      have low := byte.toNat_lt
      simp only [toNat, List.length_cons, ofNat]
      congr 1
      · apply UInt8.toNat_inj.mp
        rw [UInt8.toNat_ofNat']
        omega
      · rw [show (byte.toNat + 256 * toNat rest) / 256 = toNat rest by omega, ih]

theorem length_field {buffer : List UInt8} {offset width : Nat}
    (inside : offset + width ≤ buffer.length) : (field buffer offset width).length = width := by
  simp only [field, List.length_take, List.length_drop]
  omega

theorem toNat_field_lt (buffer : List UInt8) (offset width : Nat) :
    toNat (field buffer offset width) < 256 ^ width := by
  refine Nat.lt_of_lt_of_le (toNat_lt _) (Nat.pow_le_pow_right (by omega) ?_)
  simp only [field, List.length_take]
  omega

/-- A field that was written as a number reads back as its bytes. -/
theorem ofNat_toNat_field {buffer : List UInt8} {offset width : Nat}
    (inside : offset + width ≤ buffer.length) :
    ofNat width (toNat (field buffer offset width)) = field buffer offset width := by
  have := ofNat_toNat (field buffer offset width)
  rwa [length_field inside] at this

/-- Skip the part of a buffer in front of a field. -/
theorem field_append_right {front rest : List UInt8} {offset : Nat} (width : Nat)
    (skip : front.length ≤ offset) :
    field (front ++ rest) offset width = field rest (offset - front.length) width := by
  simp only [field]
  rw [List.drop_append, List.drop_eq_nil_of_le skip, List.nil_append]

theorem field_append_left {front rest : List UInt8} {offset width : Nat}
    (inside : offset + width ≤ front.length) :
    field (front ++ rest) offset width = field front offset width := by
  simp only [field]
  rw [List.drop_append_of_le_length (by omega), List.take_append_of_le_length (by simp; omega)]

@[simp] theorem field_zero_length (front : List UInt8) : field front 0 front.length = front := by
  simp [field]

/-- A field that starts behind `front` and is all of `middle`. -/
theorem field_between (front middle rest : List UInt8) :
    field (front ++ (middle ++ rest)) front.length middle.length = middle := by
  rw [field_append_right _ (Nat.le_refl _), Nat.sub_self, field_append_left (by omega),
    field_zero_length]

/-- The field at the front of what is left of a buffer, and what is left then. -/
theorem field_of_drop {buffer bytes tail : List UInt8} {offset : Nat}
    (rest : buffer.drop offset = bytes ++ tail) :
    field buffer offset bytes.length = bytes ∧ buffer.drop (offset + bytes.length) = tail := by
  constructor
  · rw [field, rest, List.take_left']
    rfl
  · rw [← List.drop_drop, rest, List.drop_left']
    rfl

/-- Two adjacent fields are one. -/
theorem field_append_field (buffer : List UInt8) (offset first second : Nat) :
    field buffer offset first ++ field buffer (offset + first) second =
      field buffer offset (first + second) := by
  simp only [field, List.take_add, List.drop_drop]

/-- A field of a field. -/
theorem field_field (buffer : List UInt8) (offset : Nat) {width inner innerWidth : Nat}
    (inside : inner + innerWidth ≤ width) :
    field (field buffer offset width) inner innerWidth =
      field buffer (offset + inner) innerWidth := by
  simp only [field, List.drop_take, List.drop_drop, List.take_take]
  congr 1
  omega

/-- `memcpy` to an offset of a buffer that has room behind it. -/
def write (buffer : List UInt8) (offset : Nat) (data : List UInt8) : List UInt8 :=
  buffer.take offset ++ (data ++ buffer.drop (offset + data.length))

/-- New bytes in place of as many old ones. -/
theorem write_between {old data : List UInt8} (same : data.length = old.length)
    (front rest : List UInt8) :
    write (front ++ (old ++ rest)) front.length data = front ++ (data ++ rest) := by
  have behind : (front ++ (old ++ rest)).drop (front.length + data.length) = rest := by
    rw [same, List.drop_append, List.drop_append]
    simp
  rw [write, behind, List.take_left']
  rfl

/-- New bytes behind those that are kept. -/
theorem write_behind (front rest data : List UInt8) :
    write (front ++ rest) front.length data = front ++ (data ++ rest.drop data.length) := by
  have behind : (front ++ rest).drop (front.length + data.length) = rest.drop data.length := by
    rw [List.drop_append]
    simp
  rw [write, behind, List.take_left']
  rfl

section Disjoint

variable {buffer data : List UInt8} {pos offset width : Nat}

theorem length_le_length_write (buffer : List UInt8) (pos : Nat) (data : List UInt8) :
    buffer.length ≤ (write buffer pos data).length := by
  simp only [write, List.length_append, List.length_take, List.length_drop]
  omega

theorem length_write (inside : pos + data.length ≤ buffer.length) :
    (write buffer pos data).length = buffer.length := by
  simp only [write, List.length_append, List.length_take, List.length_drop]
  omega

/-- Bytes that are written one behind the other are written at once. -/
theorem write_write (inside : pos ≤ buffer.length) (data more : List UInt8) :
    write (write buffer pos data) (pos + data.length) more = write buffer pos (data ++ more) := by
  have front : (buffer.take pos).length = pos := by
    rw [List.length_take]
    omega
  have behind : (buffer.drop (pos + data.length)).drop more.length =
      buffer.drop (pos + (data ++ more).length) := by
    rw [List.drop_drop, List.length_append, Nat.add_assoc]
  have between := write_behind (buffer.take pos ++ data) (buffer.drop (pos + data.length)) more
  rw [List.length_append, front, behind] at between
  simpa only [write, List.append_assoc] using between

theorem drop_write_self (inside : pos ≤ buffer.length) :
    (write buffer pos data).drop pos = data ++ buffer.drop (pos + data.length) := by
  apply List.drop_left'
  rw [List.length_take]
  omega

theorem field_write_self (inside : pos ≤ buffer.length) :
    field (write buffer pos data) pos data.length = data := by
  have front : (buffer.take pos).length = pos := by
    rw [List.length_take]
    omega
  have between := field_between (buffer.take pos) data (buffer.drop (pos + data.length))
  rwa [front] at between

theorem field_write_before (inside : offset + width ≤ buffer.length)
    (before : offset + width ≤ pos) :
    field (write buffer pos data) offset width = field buffer offset width := by
  have front : offset + width ≤ (buffer.take pos).length := by
    rw [List.length_take]
    omega
  have taken := @field_append_left (buffer.take pos) (buffer.drop pos) offset width front
  rw [List.take_append_drop] at taken
  rw [write, field_append_left front, taken]

theorem field_write_behind (inside : pos ≤ buffer.length) (behind : pos + data.length ≤ offset) :
    field (write buffer pos data) offset width = field buffer offset width := by
  have front : (buffer.take pos).length = pos := by
    rw [List.length_take]
    omega
  rw [write, field_append_right _ (by omega), field_append_right _ (by omega), front, field, field,
    List.drop_drop]
  congr 2
  omega

theorem field_write_of_disjoint (room : pos ≤ buffer.length)
    (inside : offset + width ≤ buffer.length)
    (apart : offset + width ≤ pos ∨ pos + data.length ≤ offset) :
    field (write buffer pos data) offset width = field buffer offset width :=
  apart.elim (field_write_before inside) (field_write_behind room)

theorem drop_write (inside : offset + pos ≤ buffer.length) :
    (write buffer (offset + pos) data).drop offset = write (buffer.drop offset) pos data := by
  have front : offset - (buffer.take (offset + pos)).length = 0 := by
    rw [List.length_take]
    omega
  rw [write, List.drop_append, front, List.drop_zero, List.drop_take, Nat.add_sub_cancel_left, write,
    List.drop_drop, Nat.add_assoc]

theorem take_write (inside : pos + data.length ≤ width) (room : width ≤ buffer.length) :
    (write buffer pos data).take width = write (buffer.take width) pos data := by
  have front : (buffer.take pos).length = pos := by
    rw [List.length_take]
    omega
  simp only [write, List.take_append, front, List.take_take, List.drop_take,
    Nat.min_eq_left (show pos ≤ width by omega), Nat.min_eq_right (show pos ≤ width by omega),
    List.take_of_length_le (show data.length ≤ width - pos by omega), Nat.sub_sub]

/-- A write inside a field is a write to the field. -/
theorem field_write_inside (inside : pos + data.length ≤ width)
    (room : offset + width ≤ buffer.length) :
    field (write buffer (offset + pos) data) offset width = write (field buffer offset width) pos data := by
  rw [field, drop_write (by omega), take_write inside (by rw [List.length_drop]; omega), field]

end Disjoint

end Bytes
