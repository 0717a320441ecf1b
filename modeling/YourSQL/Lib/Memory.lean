import YourSQL.Lib.Bytes

/-! # Accesses to a buffer

A copy out of a buffer or into it, which is not defined outside of the buffer, and the
types whose values are copied as they lie in memory.
-/

namespace Memory

/-- Why a program has no result. -/
inductive Fault where
  /-- A byte outside of the buffer was to be read or written. -/
  | outside
  /-- The rounds that a loop was given were not enough. -/
  | unfinished
  deriving Repr, DecidableEq

def read (buffer : List UInt8) (offset width : Nat) : Except Fault (List UInt8) :=
  if offset + width ≤ buffer.length then
    .ok (Bytes.field buffer offset width)
  else
    .error .outside

def write (buffer : List UInt8) (offset : Nat) (data : List UInt8) : Except Fault (List UInt8) :=
  if offset + data.length ≤ buffer.length then
    .ok (Bytes.write buffer offset data)
  else
    .error .outside

variable {buffer buffer' data : List UInt8} {offset width : Nat}

theorem read_of_inside (inside : offset + width ≤ buffer.length) :
    read buffer offset width = .ok (Bytes.field buffer offset width) := if_pos inside

theorem read_of_outside (outside : buffer.length < offset + width) :
    read buffer offset width = .error .outside := if_neg (Nat.not_le_of_lt outside)

theorem write_of_inside (inside : offset + data.length ≤ buffer.length) :
    write buffer offset data = .ok (Bytes.write buffer offset data) := if_pos inside

theorem write_of_outside (outside : buffer.length < offset + data.length) :
    write buffer offset data = .error .outside := if_neg (Nat.not_le_of_lt outside)

/-- The bytes at the front of what is left of a buffer can be read. -/
theorem read_of_drop {tail : List UInt8} (inside : offset ≤ buffer.length)
    (rest : buffer.drop offset = data ++ tail) :
    read buffer offset data.length = .ok data ∧ offset + data.length ≤ buffer.length ∧
      buffer.drop (offset + data.length) = tail := by
  obtain ⟨field, behind⟩ := Bytes.field_of_drop rest
  have room : offset + data.length ≤ buffer.length := by
    have := congrArg List.length rest
    rw [List.length_drop, List.length_append] at this
    omega
  exact ⟨by rw [read_of_inside room, field], room, behind⟩

/-- What is written one behind the other is written at once, or not at all. -/
theorem write_bind_write (buffer : List UInt8) (offset : Nat) (data more : List UInt8) :
    (do write (← write buffer offset data) (offset + data.length) more) =
      write buffer offset (data ++ more) := by
  cases Nat.lt_or_ge buffer.length (offset + data.length) with
  | inl outside =>
      rw [write_of_outside outside, write_of_outside (by rw [List.length_append]; omega)]
      rfl
  | inr inside =>
      rw [write_of_inside inside]
      change write (Bytes.write buffer offset data) (offset + data.length) more = _
      unfold write
      rw [Bytes.length_write inside, List.length_append, ← Nat.add_assoc,
        Bytes.write_write (by omega)]

/-- A type whose values all take the same number of bytes. -/
structure FixedSize (α : Type) where
  size : Nat
  encode : α → List UInt8
  decode : List UInt8 → α
  size_lt : size < 2 ^ 64
  length_encode : ∀ a, (encode a).length = size
  decode_encode : ∀ a, decode (encode a) = a

namespace FixedSize

variable {α : Type} (type : FixedSize α)

/-- A copy of so many bytes into a variable. One of another length goes beyond the variable,
    or leaves bytes of it without a value. -/
def ofBytes (bytes : List UInt8) : Except Fault α :=
  if bytes.length = type.size then
    .ok (type.decode bytes)
  else
    .error .outside

@[simp] theorem ofBytes_encode (a : α) : type.ofBytes (type.encode a) = .ok a := by
  rw [ofBytes, if_pos (type.length_encode a), type.decode_encode]

end FixedSize

end Memory
