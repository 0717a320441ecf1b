import YourSQL.Storage.RowRoundTrip
import YourSQL.Storage.SlottedPage

/-! # The row codec

`Row::Serialize` and `Row::Deserialize` with the record header and `use_size_`. A row comes
back unless a BOOL is false, which is stored as a character that is not zero either, or a
VARCHAR2 has a value, which `Deserialize` has no case for.
-/

namespace YourSQL

/-- The fields of a header have 64, 64 and 32 bits. -/
def RecordHeader.Fits (header : RecordHeader) : Prop :=
  header.trxId < 2 ^ 64 ∧ header.rollPtr.pageId < 2 ^ 64 ∧ header.rollPtr.slot < 2 ^ 32

namespace Row

/-- The bytes that `Serialize` returns, and what it leaves in `use_size_`. -/
structure Serialized where
  data : List UInt8
  useSize : Nat
  deriving Repr, DecidableEq

/-- What the first loop of `Serialize` adds to `size` for a column. -/
def valueSize (type : ColumnTypes) (value : Value) : Except String Nat :=
  if value.isNull then
    .ok 0
  else
    match type with
    | .bool => .ok 1
    | .integer => .ok 4
    | .timestamp => .ok 8
    | .varchar | .varchar2 => value.getString.map fun val => 8 + val.length
    | _ => .error "[Row::Serialize()] invalid column type"

/-- `Serialize`, with the header. -/
def serializeRecord (header : RecordHeader) (schema : List ColumnTypes) (values : List Value) :
    Except String Serialized := do
  let columns := schema.zip values
  let sizes ← columns.mapM fun column => valueSize column.1 column.2
  let marks := columns.map fun column => if column.2.isNull then NULL_MARK else VALUE_MARK
  let bytes ← columns.mapM fun column => valueBytes column.1 column.2
  return {
    data := header.encode ++ (marks ++ bytes.flatten)
    useSize := schema.length + sizes.sum + REC_HEADER_SIZE }

/-- `Deserialize`, with the header. -/
def deserializeRecord (schema : List ColumnTypes) (data : List UInt8) :
    Except String (RecordHeader × List Value) := do
  let header := (Record.decode data).toRecordHeader
  let values ← deserialize schema (data.drop REC_HEADER_SIZE)
  return (header, values)

/-- The row and its header are read back from as many bytes as `use_size_` says. -/
def RoundTrips (header : RecordHeader) (schema : List ColumnTypes) (values : List Value) : Prop :=
  ∃ row, serializeRecord header schema values = .ok row ∧ row.data.length = row.useSize ∧
    deserializeRecord schema row.data = .ok (header, values)

/-- A value that is neither false in a BOOL column nor anything but null in a VARCHAR2 column. -/
def Survives (column : ColumnTypes × Value) : Prop :=
  column ≠ (.bool, .of (.bool false)) ∧ (column.1 = .varchar2 → column.2.isNull = true)

/-! ## The encoder -/

theorem valueBytes_of_matching {column : ColumnTypes × Value} (matching : Matching column) :
    ∃ bytes, valueBytes column.1 column.2 = .ok bytes ∧
      valueSize column.1 column.2 = .ok bytes.length := by
  obtain ⟨type, value⟩ := column
  cases matching with
  | inl isNull =>
      obtain rfl : value = .null := isNull
      exact ⟨[], rfl, rfl⟩
  | inr given =>
      obtain ⟨val, given, holds⟩ := given
      obtain rfl : value = .of val := given
      cases type with
      | bool =>
          cases val with
          | bool val => exact ⟨_, rfl, rfl⟩
          | _ => cases holds
      | integer =>
          cases val with
          | int n => exact ⟨_, rfl, congrArg Except.ok (Bytes.length_ofNat ..).symm⟩
          | _ => cases holds
      | timestamp =>
          cases val with
          | longLong n => exact ⟨_, rfl, congrArg Except.ok (Bytes.length_ofNat ..).symm⟩
          | _ => cases holds
      | varchar =>
          cases val with
          | string val =>
              refine ⟨_, rfl, congrArg Except.ok ?_⟩
              rw [List.length_append, Bytes.length_ofNat]
          | _ => cases holds
      | varchar2 =>
          cases val with
          | string val =>
              refine ⟨_, rfl, congrArg Except.ok ?_⟩
              rw [List.length_append, Bytes.length_ofNat]
          | _ => cases holds
      | _ => cases holds

/-- Both loops come to the end of the row, and the first one measures what the second writes. -/
theorem mapM_of_matching {columns : List (ColumnTypes × Value)}
    (matching : ∀ column ∈ columns, Matching column) :
    ∃ parts, (columns.mapM fun column => valueBytes column.1 column.2) = .ok parts ∧
      (columns.mapM fun column => valueSize column.1 column.2) = .ok (parts.map List.length) := by
  induction columns with
  | nil => exact ⟨[], rfl, rfl⟩
  | cons column columns ih =>
      obtain ⟨bytes, written, measured⟩ := valueBytes_of_matching (matching _ (List.mem_cons_self ..))
      obtain ⟨parts, others, sizes⟩ := ih fun c member => matching c (List.mem_cons_of_mem _ member)
      refine ⟨bytes :: parts, ?_, ?_⟩
      · rw [List.mapM_cons, written, others]
        rfl
      · rw [List.mapM_cons, measured, sizes]
        rfl

theorem forM_checkValue {columns : List (ColumnTypes × Value)}
    (matching : ∀ column ∈ columns, Matching column) :
    columns.forM (fun column => checkValue column.1 column.2) = .ok () := by
  induction columns with
  | nil => rfl
  | cons column columns ih =>
      have later := ih fun c member => matching c (List.mem_cons_of_mem _ member)
      obtain ⟨type, value⟩ := column
      have checked : checkValue type value = .ok () := by
        cases matching _ (List.mem_cons_self ..) with
        | inl isNull =>
            obtain rfl : value = .null := isNull
            rfl
        | inr given =>
            obtain ⟨val, given, holds⟩ := given
            obtain rfl : value = .of val := given
            cases type <;> cases val <;> first | rfl | cases holds
      change (checkValue type value >>= fun _ => columns.forM _) = _
      rw [checked]
      exact later

/-- The encoder takes every row of matching values, and `use_size_` is the length. -/
theorem serializeRecord_of_matching (header : RecordHeader) {schema : List ColumnTypes}
    {values : List Value} (same : schema.length = values.length)
    (matching : ∀ column ∈ schema.zip values, Matching column) :
    ∃ payload, serialize schema values = .ok payload ∧
      serializeRecord header schema values = .ok ⟨header.encode ++ payload, useSize payload⟩ := by
  obtain ⟨parts, written, sizes⟩ := mapM_of_matching matching
  refine ⟨(schema.zip values).map (fun column => mark column.2) ++ parts.flatten, ?_, ?_⟩
  · rw [serialize_eq]
    simp only [forM_checkValue matching, written]
    rfl
  · have size : useSize ((schema.zip values).map (fun column => mark column.2) ++ parts.flatten) =
        schema.length + (parts.map List.length).sum + REC_HEADER_SIZE := by
      simp only [useSize, List.length_append, List.length_map, List.length_zip, ← same,
        Nat.min_self, List.length_flatten]
      omega
    simp only [serializeRecord, size, sizes, written]
    rfl

/-! ## The decoder -/

theorem decode_append {header : RecordHeader} (fits : header.Fits) (payload : List UInt8) :
    Record.decode (header.encode ++ payload) = ⟨header, payload⟩ := by
  obtain ⟨trxId, pageId, slot⟩ := fits
  have behind : (header.encode ++ payload).drop REC_HEADER_SIZE = payload := by
    rw [← header.length_encode, List.drop_left]
  have bytes : (header.encode ++ payload).drop 0 = Bytes.ofNat 8 header.trxId ++
      (Bytes.ofNat 8 header.rollPtr.pageId ++ (Bytes.ofNat 4 header.rollPtr.slot ++
        (Bytes.ofNat 2 header.flags.toNat ++ payload))) := by
    simp only [RecordHeader.encode, List.append_assoc, List.drop_zero]
  obtain ⟨first, bytes⟩ := Bytes.field_of_drop bytes
  obtain ⟨second, bytes⟩ := Bytes.field_of_drop bytes
  obtain ⟨third, bytes⟩ := Bytes.field_of_drop bytes
  obtain ⟨fourth, -⟩ := Bytes.field_of_drop bytes
  simp only [Bytes.length_ofNat, Nat.zero_add, Nat.reduceAdd] at first second third fourth
  have flags : Bytes.toNat (Bytes.ofNat 2 header.flags.toNat) = header.flags.toNat :=
    Bytes.toNat_ofNat_of_lt header.flags.isLt
  have numbers : Bytes.toNat (Bytes.ofNat 8 header.trxId) = header.trxId ∧
      Bytes.toNat (Bytes.ofNat 8 header.rollPtr.pageId) = header.rollPtr.pageId ∧
      Bytes.toNat (Bytes.ofNat 4 header.rollPtr.slot) = header.rollPtr.slot :=
    ⟨Bytes.toNat_ofNat_of_lt trxId, Bytes.toNat_ofNat_of_lt pageId, Bytes.toNat_ofNat_of_lt slot⟩
  simp only [Record.decode, behind, first, second, third, fourth, numbers, flags,
    BitVec.ofNat_toNat, BitVec.setWidth_eq]

theorem deserializeRecord_append {header : RecordHeader} (fits : header.Fits)
    (schema : List ColumnTypes) (payload : List UInt8) :
    deserializeRecord schema (header.encode ++ payload) =
      (deserialize schema payload).map fun values => (header, values) := by
  have behind : (header.encode ++ payload).drop REC_HEADER_SIZE = payload := by
    rw [← header.length_encode, List.drop_left]
  simp only [deserializeRecord, decode_append fits, behind]
  cases deserialize schema payload <;> rfl

/-- A VARCHAR2 that is marked as a value stops the loop, if no column before it does. -/
theorem readValues_fails {columns : List (ColumnTypes × Value)} {type : ColumnTypes}
    {value : Value} (member : (type, value) ∈ columns) (undecoded : type = .varchar2)
    (given : value.isNull = false) {payload rest : List UInt8} {index : Nat} (offset : Nat)
    (marks : payload.drop index = columns.map (fun column => mark column.2) ++ rest) :
    ∃ message, readValues payload index offset (columns.map Prod.fst) = .error message := by
  induction columns generalizing index offset with
  | nil => cases member
  | cons column columns ih =>
      have here : payload[index]? = some (mark column.2) := by
        have head := congrArg List.head? marks
        simpa [List.head?_drop] using head
      have marks' : payload.drop (index + 1) =
          columns.map (fun column => mark column.2) ++ rest := by
        rw [← List.drop_drop, marks]
        rfl
      rw [List.map_cons, readValues, here]
      cases member with
      | head =>
          have notNull : ¬ some (mark value) = some NULL_MARK := by
            rw [mark, given]
            decide
          subst undecoded
          rw [if_neg notNull]
          exact ⟨_, rfl⟩
      | tail _ member =>
          split
          · obtain ⟨message, failed⟩ := ih member offset marks'
            rw [failed]
            exact ⟨message, rfl⟩
          · cases readValue payload offset column.1 with
            | error message => exact ⟨message, rfl⟩
            | ok read =>
                obtain ⟨message, failed⟩ := ih member read.2 marks'
                change ∃ message, (readValues _ _ read.2 _ >>= _) = _
                rw [failed]
                exact ⟨message, rfl⟩

theorem deserialize_fails {schema : List ColumnTypes} {values : List Value}
    (same : schema.length = values.length) {payload : List UInt8}
    (written : serialize schema values = .ok payload) {type : ColumnTypes} {value : Value}
    (member : (type, value) ∈ schema.zip values) (undecoded : type = .varchar2)
    (given : value.isNull = false) : ∃ message, deserialize schema payload = .error message := by
  obtain ⟨parts, -, rfl⟩ := parts_of_serialize written
  have marks : ((schema.zip values).map (fun column => mark column.2) ++ parts.flatten).drop 0 =
      (schema.zip values).map (fun column => mark column.2) ++ parts.flatten := rfl
  have failed := readValues_fails member undecoded given schema.length marks
  rwa [List.map_fst_zip (le_of_eq same)] at failed

/-! ## The round trip -/

theorem readBack_eq_iff {column : ColumnTypes × Value} (matching : Matching column) :
    readBack column = column.2 ↔ column ≠ (.bool, .of (.bool false)) := by
  obtain ⟨type, value⟩ := column
  cases matching with
  | inl isNull =>
      obtain rfl : value = .null := isNull
      exact iff_of_true (if_neg (by simp [Value.null])) (by simp [Value.null, Value.of])
  | inr given =>
      obtain ⟨val, given, holds⟩ := given
      obtain rfl : value = .of val := given
      cases type with
      | bool =>
          cases val with
          | bool val => cases val <;> simp [readBack, Value.of]
          | _ => cases holds
      | _ => exact iff_of_true (if_neg (by simp)) (by simp)

/-- Every header comes back, and the values do if and only if the row has neither a BOOL that
    is false nor a VARCHAR2 that has a value. -/
theorem roundTrips_iff {header : RecordHeader} (fits : header.Fits) {schema : List ColumnTypes}
    {values : List Value} (same : schema.length = values.length)
    (matching : ∀ column ∈ schema.zip values, Matching column) :
    RoundTrips header schema values ↔ ∀ column ∈ schema.zip values, Survives column := by
  obtain ⟨payload, written, encoded⟩ := serializeRecord_of_matching header same matching
  have length : (header.encode ++ payload).length = useSize payload := by
    rw [List.length_append, header.length_encode, useSize]
  constructor
  · rintro ⟨row, serialized, -, read⟩
    rw [encoded] at serialized
    obtain rfl := Except.ok.inj serialized
    rw [deserializeRecord_append fits] at read
    -- a VARCHAR2 with a value would have stopped the decoder
    have decoded : ∀ column ∈ schema.zip values,
        column.2.isNull = false → column.1 ≠ .varchar2 := by
      intro column member given undecoded
      obtain ⟨message, failed⟩ := deserialize_fails same written member undecoded given
      rw [failed] at read
      cases read
    obtain ⟨values', -⟩ := deserialize_of_serialize same matching decoded written
    rw [values'] at read
    have back : (schema.zip values).map readBack = (schema.zip values).map Prod.snd := by
      rw [List.map_snd_zip (le_of_eq same.symm)]
      exact congrArg Prod.snd (Except.ok.inj read)
    intro column member
    have unchanged := (List.map_inj_left.mp back) column member
    refine ⟨(readBack_eq_iff (matching column member)).mp unchanged, fun undecoded => ?_⟩
    cases given : column.2.isNull with
    | true => rfl
    | false => exact absurd undecoded (decoded column member given)
  · intro survives
    have decoded : ∀ column ∈ schema.zip values,
        column.2.isNull = false → column.1 ≠ .varchar2 := by
      intro column member given undecoded
      rw [(survives column member).2 undecoded] at given
      cases given
    obtain ⟨read, -⟩ := deserialize_of_serialize same matching decoded written
    have back : (schema.zip values).map readBack = values := by
      rw [List.map_congr_left fun column member =>
        (readBack_eq_iff (matching column member)).mpr (survives column member).1]
      exact List.map_snd_zip (le_of_eq same.symm)
    refine ⟨_, encoded, length, ?_⟩
    rw [deserializeRecord_append fits, read, back]
    rfl

theorem roundTrips_iff_fourColumns :
    RoundTrips ⟨7, ⟨3, 1⟩, RECORD_DEL⟩ [.bool, .integer, .varchar, .timestamp]
        [.of (.bool true), .null, .of (.string [97, 98]), .of (.longLong (-5))] ↔
      ∀ column ∈ [ColumnTypes.bool, .integer, .varchar, .timestamp].zip
        [.of (.bool true), .null, .of (.string [97, 98]), .of (.longLong (-5))],
        Survives column := by
  have fits : RecordHeader.Fits ⟨7, ⟨3, 1⟩, RECORD_DEL⟩ := by
    unfold RecordHeader.Fits
    decide
  refine roundTrips_iff fits rfl ?_
  simp only [List.zip_cons_cons, List.zip_nil_right, List.forall_mem_cons, List.not_mem_nil,
    false_implies, implies_true, and_true]
  exact ⟨.inr ⟨_, rfl, trivial⟩, .inl rfl, .inr ⟨_, rfl, by simp [Holds]⟩,
    .inr ⟨_, rfl, by simp [Holds]⟩⟩

/-- False comes back as true. -/
theorem false_not_roundTrips :
    Matching (.bool, .of (.bool false)) ∧
      ¬ RoundTrips ⟨7, .null, 0⟩ [.bool] [.of (.bool false)] ∧
      (serializeRecord ⟨7, .null, 0⟩ [.bool] [.of (.bool false)] >>= fun row =>
          deserializeRecord [.bool] row.data) =
        .ok (⟨7, .null, 0⟩, [.of (.bool true)]) := by
  refine ⟨.inr ⟨_, rfl, trivial⟩, ?_, by decide⟩
  rintro ⟨row, serialized, -, read⟩
  obtain rfl := Except.ok.inj serialized
  exact absurd read (by decide)

end Row

end YourSQL
