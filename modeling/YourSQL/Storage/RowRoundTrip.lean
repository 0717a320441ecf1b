import YourSQL.Storage.Record
import YourSQL.Storage.Row

/-! # Rows that come back

What `Row::Serialize` writes for the columns of INTEGER and VARCHAR tables is what
`Row::Deserialize` reads, up to the last byte and not a byte further.
-/

namespace YourSQL

/-- Null has one form only, an `int` has 32 bits, and a string's length is a `size_t`. -/
def Value.Built (value : Value) : Prop :=
  if value.isNull then
    value = .null
  else
    match value.val with
    | .int n => -2 ^ 31 ≤ n ∧ n < 2 ^ 31
    | .string val => val.length < 2 ^ 64
    | _ => True

namespace Row

/-- The offset up to which `Deserialize` reads, from column `index` on. -/
def readsTo (payload : List UInt8) : (index offset : Nat) → List ColumnTypes → Nat
  | _, offset, [] => offset
  | index, offset, type :: types =>
      if payload[index]? = some NULL_MARK then
        readsTo payload (index + 1) offset types
      else
        match readValue payload offset type with
        | .error _ => offset
        | .ok (_, offset) => readsTo payload (index + 1) offset types

/-- `use_size_`: the record header counts as well. -/
def useSize (payload : List UInt8) : Nat := REC_HEADER_SIZE + payload.length

theorem signedOf_signedBytes {width : Nat} {n : Int} (wide : 0 < width)
    (low : -2 ^ (8 * width - 1) ≤ n) (high : n < 2 ^ (8 * width - 1)) :
    signedOf width (signedBytes width n) = n := by
  obtain ⟨half, bits⟩ : ∃ half, 8 * width = half + 1 := ⟨8 * width - 1, by omega⟩
  have bytes : 256 ^ width = 2 * 2 ^ half := by
    rw [← Nat.pow_succ', Nat.succ_eq_add_one, ← bits, Nat.pow_mul]
  have double : (2 : Int) ^ (half + 1) = 2 * 2 ^ half := Int.pow_succ' ..
  have cast : ((2 ^ half : Nat) : Int) = 2 ^ half := by norm_cast
  rw [bits, Nat.add_sub_cancel] at low high
  simp only [signedOf, signedBytes, Bytes.toNat_ofNat, bytes, bits, Nat.add_sub_cancel, double]
  rcases Int.lt_or_le n 0 with negative | positive
  · have residue : n % (2 * 2 ^ half) = n + 2 * 2 ^ half := by
      rw [← Int.add_emod_right, Int.emod_eq_of_lt (by omega) (by omega)]
    rw [residue, Nat.mod_eq_of_lt (by omega), if_neg (by omega)]
    omega
  · rw [Int.emod_eq_of_lt positive (by omega), Nat.mod_eq_of_lt (by omega), if_pos (by omega)]
    omega

/-- The columns of the tables that are meant. -/
def Storable (column : ColumnTypes × Value) : Prop :=
  (column.1 = .integer ∨ column.1 = .varchar) ∧ column.2.Built

def mark (value : Value) : UInt8 := if value.isNull then NULL_MARK else VALUE_MARK

/-- What a column of the type may hold: an `int` has 32 bits, a `long long` has 64, and a
    string's length is a `size_t`. -/
def Holds : ColumnTypes → Variant → Prop
  | .bool, .bool _ => True
  | .integer, .int n => -2 ^ 31 ≤ n ∧ n < 2 ^ 31
  | .timestamp, .longLong n => -2 ^ 63 ≤ n ∧ n < 2 ^ 63
  | .varchar, .string val => val.length < 2 ^ 64
  | .varchar2, .string val => val.length < 2 ^ 64
  | _, _ => False

/-- A column is null or has a value of its type. -/
def Matching (column : ColumnTypes × Value) : Prop :=
  column.2 = .null ∨ ∃ val, column.2 = .of val ∧ Holds column.1 val

/-- What `Deserialize` makes of a column: both marks of a BOOL are read as true. -/
def readBack (column : ColumnTypes × Value) : Value :=
  if column.1 = .bool ∧ column.2.isNull = false then .of (.bool true) else column.2

theorem Storable.matching {column : ColumnTypes × Value} (storable : Storable column)
    {bytes : List UInt8} (written : valueBytes column.1 column.2 = .ok bytes) :
    Matching column := by
  obtain ⟨type, isNull, val⟩ := column
  obtain ⟨kind, built⟩ := storable
  cases isNull with
  | true => exact .inl built
  | false =>
      refine .inr ⟨val, rfl, ?_⟩
      rcases kind with rfl | rfl <;> cases val <;> first | exact built | cases written

theorem Storable.readBack {column : ColumnTypes × Value} (storable : Storable column) :
    readBack column = column.2 := by
  have other : ¬ (column.1 = .bool ∧ column.2.isNull = false) := by
    rintro ⟨isBool, -⟩
    rcases storable.1 with type | type <;> rw [type] at isBool <;> cases isBool
  exact if_neg other

/-- A column that is not null is read back from where it was written. -/
theorem readValue_valueBytes {type : ColumnTypes} {val : Variant} (holds : Holds type val)
    (decoded : type ≠ .varchar2) {bytes : List UInt8}
    (written : valueBytes type (.of val) = .ok bytes) {payload tail : List UInt8} {offset : Nat}
    (body : payload.drop offset = bytes ++ tail) :
    readValue payload offset type = .ok (readBack (type, .of val), offset + bytes.length) := by
  obtain ⟨here, -⟩ := Bytes.field_of_drop body
  cases type with
  | bool =>
      cases val with
      | bool val =>
          obtain rfl : [if val then VALUE_MARK else NULL_MARK] = bytes := Except.ok.inj written
          rw [List.length_singleton] at here
          unfold readValue
          rw [here]
          cases val <;> rfl
      | _ => cases holds
  | integer =>
      cases val with
      | int n =>
          obtain ⟨low, high⟩ := holds
          obtain rfl : signedBytes 4 n = bytes := Except.ok.inj written
          have width : (signedBytes 4 n).length = 4 := Bytes.length_ofNat ..
          rw [width] at here ⊢
          unfold readValue
          rw [here, signedOf_signedBytes (by decide) low high]
          rfl
      | _ => cases holds
  | timestamp =>
      cases val with
      | longLong n =>
          obtain ⟨low, high⟩ := holds
          obtain rfl : signedBytes 8 n = bytes := Except.ok.inj written
          have width : (signedBytes 8 n).length = 8 := Bytes.length_ofNat ..
          rw [width] at here ⊢
          unfold readValue
          rw [here, signedOf_signedBytes (by decide) low high]
          rfl
      | _ => cases holds
  | varchar =>
      cases val with
      | string val =>
          have small : val.length < 256 ^ 8 := holds
          obtain rfl : Bytes.ofNat 8 val.length ++ val = bytes := Except.ok.inj written
          rw [List.append_assoc] at body
          have width : (Bytes.ofNat 8 val.length).length = 8 := Bytes.length_ofNat ..
          obtain ⟨length, behind⟩ := Bytes.field_of_drop body
          rw [width] at length behind
          obtain ⟨string, -⟩ := Bytes.field_of_drop behind
          unfold readValue
          simp only [length, Bytes.toNat_ofNat_of_lt small, string, List.length_append, width,
            ← Nat.add_assoc]
          rfl
      | _ => cases holds
  | varchar2 => exact absurd rfl decoded
  | invalid => cases holds
  | double => cases holds
  | nullType => cases holds

/-- What is written for a row is read back column by column, unless `Deserialize` does not
    know a type. -/
theorem readValues_valueBytes {columns : List (ColumnTypes × Value)}
    (matching : ∀ column ∈ columns, Matching column)
    (decoded : ∀ column ∈ columns, column.2.isNull = false → column.1 ≠ .varchar2)
    {parts : List (List UInt8)}
    (written : (columns.mapM fun column => valueBytes column.1 column.2) = .ok parts)
    {payload rest tail : List UInt8} {index offset : Nat}
    (marks : payload.drop index = columns.map (fun column => mark column.2) ++ rest)
    (body : payload.drop offset = parts.flatten ++ tail) :
    readValues payload index offset (columns.map Prod.fst) = .ok (columns.map readBack) ∧
      readsTo payload index offset (columns.map Prod.fst) = offset + parts.flatten.length := by
  induction columns generalizing parts index offset with
  | nil =>
      obtain rfl : [] = parts := Except.ok.inj written
      exact ⟨rfl, rfl⟩
  | cons column columns ih =>
      obtain ⟨type, value⟩ := column
      rw [List.mapM_cons] at written
      cases first : valueBytes type value with
      | error message =>
          rw [first] at written
          cases written
      | ok bytes =>
          rw [first] at written
          cases later : (columns.mapM fun column => valueBytes column.1 column.2) with
          | error message =>
              simp only [later] at written
              cases written
          | ok parts' =>
              simp only [later] at written
              obtain rfl : bytes :: parts' = parts := Except.ok.inj written
              have matching' := fun c member => matching c (List.mem_cons_of_mem _ member)
              have decoded' := fun c member => decoded c (List.mem_cons_of_mem _ member)
              have here : payload[index]? = some (mark value) := by
                have head := congrArg List.head? marks
                simpa [List.head?_drop] using head
              have marks' : payload.drop (index + 1) =
                  columns.map (fun column => mark column.2) ++ rest := by
                rw [← List.drop_drop, marks]
                rfl
              rw [List.flatten_cons, List.append_assoc] at body
              simp only [List.map_cons, readValues, readsTo, here]
              cases matching _ (List.mem_cons_self ..) with
              | inl isNull =>
                  obtain rfl : value = .null := isNull
                  obtain rfl : [] = bytes := Except.ok.inj first
                  obtain ⟨values, stop⟩ := ih matching' decoded' later marks' body
                  have isNull : some (mark .null) = some NULL_MARK := rfl
                  have back : readBack (type, .null) = .null := if_neg (by simp [Value.null])
                  rw [if_pos isNull, if_pos isNull, values, stop, back]
                  exact ⟨rfl, by simp⟩
              | inr given =>
                  obtain ⟨val, given, holds⟩ := given
                  obtain rfl : value = .of val := given
                  have notNull : ¬ some VALUE_MARK = some NULL_MARK := by decide
                  have marked : mark (.of val) = VALUE_MARK := rfl
                  have read := readValue_valueBytes holds (decoded _ (List.mem_cons_self ..) rfl)
                    first body
                  obtain ⟨values, stop⟩ := ih matching' decoded' later marks'
                    (Bytes.field_of_drop body).2
                  rw [marked, if_neg notNull, if_neg notNull, read]
                  refine ⟨?_, ?_⟩
                  · change (readValues _ _ _ _ >>= fun rest => .ok (_ :: rest)) = _
                    rw [values]
                    rfl
                  · rw [List.flatten_cons, List.length_append, ← Nat.add_assoc]
                    exact stop

/-- The parts of a row are there when it was written. -/
theorem parts_of_serialize {schema : List ColumnTypes} {values : List Value} {payload : List UInt8}
    (written : serialize schema values = .ok payload) :
    ∃ parts, ((schema.zip values).mapM fun column => valueBytes column.1 column.2) = .ok parts ∧
      payload = (schema.zip values).map (fun column => mark column.2) ++ parts.flatten := by
  rw [serialize_eq] at written
  cases checked : (schema.zip values).forM fun column => checkValue column.1 column.2 with
  | error message =>
      simp only [checked] at written
      cases written
  | ok _ =>
      cases each : (schema.zip values).mapM fun column => valueBytes column.1 column.2 with
      | error message =>
          simp only [checked, each] at written
          cases written
      | ok parts =>
          simp only [checked, each] at written
          exact ⟨parts, rfl, (Except.ok.inj written).symm⟩

theorem deserialize_of_serialize {schema : List ColumnTypes} {values : List Value}
    (same : schema.length = values.length)
    (matching : ∀ column ∈ schema.zip values, Matching column)
    (decoded : ∀ column ∈ schema.zip values, column.2.isNull = false → column.1 ≠ .varchar2)
    {payload : List UInt8} (written : serialize schema values = .ok payload) :
    deserialize schema payload = .ok ((schema.zip values).map readBack) ∧
      readsTo payload 0 schema.length schema = payload.length ∧ schema.length ≤ payload.length := by
  obtain ⟨parts, each, rfl⟩ := parts_of_serialize written
  let marks := (schema.zip values).map fun column => mark column.2
  have width : marks.length = schema.length := by simp [marks, same]
  have body : (marks ++ parts.flatten).drop schema.length = parts.flatten ++ [] := by
    rw [← width, List.drop_left, List.append_nil]
  obtain ⟨read, stop⟩ := @readValues_valueBytes _ matching decoded parts each
    (marks ++ parts.flatten) parts.flatten [] 0 schema.length rfl body
  rw [List.map_fst_zip (le_of_eq same)] at read stop
  refine ⟨read, ?_, ?_⟩
  · rw [stop, List.length_append, width]
  · rw [List.length_append, width]
    omega

theorem valueBytes_of_mapM {columns : List (ColumnTypes × Value)} {parts : List (List UInt8)}
    (written : (columns.mapM fun column => valueBytes column.1 column.2) = .ok parts)
    {column : ColumnTypes × Value} (member : column ∈ columns) :
    ∃ bytes, valueBytes column.1 column.2 = .ok bytes := by
  induction columns generalizing parts with
  | nil => cases member
  | cons other columns ih =>
      rw [List.mapM_cons] at written
      cases first : valueBytes other.1 other.2 with
      | error message =>
          rw [first] at written
          cases written
      | ok bytes =>
          rw [first] at written
          cases later : (columns.mapM fun column => valueBytes column.1 column.2) with
          | error message =>
              simp only [later] at written
              cases written
          | ok parts' =>
              cases member with
              | head => exact ⟨bytes, first⟩
              | tail _ member => exact ih later member

/-- A row that is serialized is deserialized to the same values, within its bytes. -/
theorem deserialize_serialize {schema : List ColumnTypes} {values : List Value}
    (same : schema.length = values.length)
    (storable : ∀ column ∈ schema.zip values, Storable column) {payload : List UInt8}
    (written : serialize schema values = .ok payload) :
    deserialize schema payload = .ok values ∧
      readsTo payload 0 schema.length schema = payload.length ∧ schema.length ≤ payload.length := by
  obtain ⟨parts, each, -⟩ := parts_of_serialize written
  have matching : ∀ column ∈ schema.zip values, Matching column := by
    intro column member
    obtain ⟨bytes, first⟩ := valueBytes_of_mapM each member
    exact (storable column member).matching first
  have decoded : ∀ column ∈ schema.zip values, column.2.isNull = false → column.1 ≠ .varchar2 := by
    intro column member _ type
    rcases (storable column member).1 with other | other <;> rw [type] at other <;> cases other
  obtain ⟨read, inside⟩ := deserialize_of_serialize same matching decoded written
  have back : (schema.zip values).map readBack = values := by
    rw [List.map_congr_left fun column member => (storable column member).readBack,
      List.map_snd_zip (le_of_eq same.symm)]
  rw [back] at read
  exact ⟨read, inside⟩

end Row

end YourSQL
