import YourSQL.Lib.Bytes
import YourSQL.Catalog.Catalog

/-! # Rows and their bytes

`Row::Serialize` and `Row::Deserialize`, for what follows the record header: one
byte for each column that says whether it is null, then the values that are not.
-/

namespace YourSQL

/-- The alternatives of the variant in a `Value`; a double is kept as its bits. -/
inductive Variant where
  | int (val : Int)
  | bool (val : Bool)
  | string (val : List UInt8)
  | longLong (val : Int)
  | double (bits : UInt64)
  deriving Repr, DecidableEq

structure Value where
  isNull : Bool
  val : Variant
  deriving Repr, DecidableEq

namespace Value

/-- The default constructor: null, over the variant's first alternative. -/
def null : Value := ⟨true, .int 0⟩

def of (val : Variant) : Value := ⟨false, val⟩

def badVariantAccess : String := "std::get: wrong index for variant"

/-- The getters look at the variant only, not at the null flag. -/
def getInt (value : Value) : Except String Int :=
  match value.val with
  | .int val => .ok val
  | _ => .error badVariantAccess

def getBool (value : Value) : Except String Bool :=
  match value.val with
  | .bool val => .ok val
  | _ => .error badVariantAccess

def getString (value : Value) : Except String (List UInt8) :=
  match value.val with
  | .string val => .ok val
  | _ => .error badVariantAccess

def getTimestamp (value : Value) : Except String Int :=
  match value.val with
  | .longLong val => .ok val
  | _ => .error badVariantAccess

def getDouble (value : Value) : Except String UInt64 :=
  match value.val with
  | .double bits => .ok bits
  | _ => .error badVariantAccess

end Value

namespace Row

/-- A two's complement number of `width` bytes. -/
def signedOf (width : Nat) (bytes : List UInt8) : Int :=
  let n := Bytes.toNat bytes
  if n < 2 ^ (8 * width - 1) then n else n - 2 ^ (8 * width)

def signedBytes (width : Nat) (n : Int) : List UInt8 :=
  Bytes.ofNat width (n % 2 ^ (8 * width)).toNat

def NULL_MARK : UInt8 := 48

def VALUE_MARK : UInt8 := 49

/-- One column that is not null, and the offset behind it. -/
def readValue (payload : List UInt8) (offset : Nat) (type : ColumnTypes) :
    Except String (Value × Nat) :=
  match type with
  -- the byte is copied into a `bool`, and both marks are not zero
  | .bool => .ok (.of (.bool (Bytes.toNat (Bytes.field payload offset 1) ≠ 0)), offset + 1)
  | .integer => .ok (.of (.int (signedOf 4 (Bytes.field payload offset 4))), offset + 4)
  | .timestamp => .ok (.of (.longLong (signedOf 8 (Bytes.field payload offset 8))), offset + 8)
  | .varchar =>
      let len := Bytes.toNat (Bytes.field payload offset 8)
      .ok (.of (.string (Bytes.field payload (offset + 8) len)), offset + 8 + len)
  | _ => .error "Invalid column type"

/-- The loop of `Deserialize` from column `index` on. -/
def readValues (payload : List UInt8) :
    (index offset : Nat) → List ColumnTypes → Except String (List Value)
  | _, _, [] => .ok []
  | index, offset, type :: types =>
      if payload[index]? = some NULL_MARK then do
        return .null :: (← readValues payload (index + 1) offset types)
      else do
        let (value, offset) ← readValue payload offset type
        return value :: (← readValues payload (index + 1) offset types)

def deserialize (schema : List ColumnTypes) (payload : List UInt8) : Except String (List Value) :=
  readValues payload 0 schema.length schema

/-- The first loop of `Serialize` fails for these; it measures strings already. -/
def checkValue (type : ColumnTypes) (value : Value) : Except String Unit :=
  if value.isNull then
    .ok ()
  else
    match type with
    | .bool | .integer | .timestamp => .ok ()
    | .varchar | .varchar2 => value.getString.map fun _ => ()
    | _ => .error "[Row::Serialize()] invalid column type"

def valueBytes (type : ColumnTypes) (value : Value) : Except String (List UInt8) :=
  if value.isNull then
    .ok []
  else
    match type with
    | .bool => value.getBool.map fun val => [if val then VALUE_MARK else NULL_MARK]
    | .integer => value.getInt.map (signedBytes 4)
    | .timestamp => value.getTimestamp.map (signedBytes 8)
    | .varchar | .varchar2 => value.getString.map fun val => Bytes.ofNat 8 val.length ++ val
    | _ => .error "[Row::Serialize()] invalid column type"

/-- `Serialize`, behind the header. There is one value for each column. -/
def serialize (schema : List ColumnTypes) (values : List Value) : Except String (List UInt8) := do
  let columns := schema.zip values
  columns.forM fun (type, value) => checkValue type value
  let marks := columns.map fun (_, value) => if value.isNull then NULL_MARK else VALUE_MARK
  let bytes ← columns.mapM fun (type, value) => valueBytes type value
  return marks ++ bytes.flatten

theorem serialize_eq (schema : List ColumnTypes) (values : List Value) :
    serialize schema values = (do
      (schema.zip values).forM fun column => checkValue column.1 column.2
      let bytes ← (schema.zip values).mapM fun column => valueBytes column.1 column.2
      return (schema.zip values).map (fun column =>
        if column.2.isNull then NULL_MARK else VALUE_MARK) ++ bytes.flatten) := rfl

/-! ## What the exceptions say -/

/-- All exceptions of the computation say one of these things. -/
def RaisesOnly (messages : List String) (x : Except String α) : Prop :=
  ∀ message, x = .error message → message ∈ messages

namespace RaisesOnly

variable {messages : List String}

theorem of_ok (a : α) : RaisesOnly messages (.ok a : Except String α) := nofun

theorem bind {x : Except String α} {f : α → Except String β} (first : RaisesOnly messages x)
    (rest : ∀ a, RaisesOnly messages (f a)) : RaisesOnly messages (x >>= f) := by
  cases x with
  | error message =>
      intro message' failed
      cases failed
      exact first message rfl
  | ok a => exact rest a

theorem map {x : Except String α} (first : RaisesOnly messages x) (f : α → β) :
    RaisesOnly messages (x.map f) := by
  cases x with
  | error message =>
      intro message' failed
      cases failed
      exact first message rfl
  | ok a => exact of_ok _

theorem mapM {f : α → Except String β} (each : ∀ a, RaisesOnly messages (f a)) (items : List α) :
    RaisesOnly messages (items.mapM f) := by
  induction items with
  | nil => exact of_ok _
  | cons a items ih =>
      rw [List.mapM_cons]
      exact (each a).bind fun _ => ih.bind fun _ => of_ok _

theorem forM {f : α → Except String PUnit} (each : ∀ a, RaisesOnly messages (f a))
    (items : List α) : RaisesOnly messages (items.forM f) := by
  induction items with
  | nil => exact of_ok _
  | cons a items ih => exact (each a).bind fun _ => ih

end RaisesOnly

theorem raisesOnly_readValue (payload : List UInt8) (offset : Nat) (type : ColumnTypes) :
    RaisesOnly ["Invalid column type"] (readValue payload offset type) := by
  intro message failed
  cases type <;> cases failed <;> simp

theorem raisesOnly_deserialize (schema : List ColumnTypes) (payload : List UInt8) :
    RaisesOnly ["Invalid column type"] (deserialize schema payload) := by
  have each : ∀ (types : List ColumnTypes) (index offset : Nat),
      RaisesOnly ["Invalid column type"] (readValues payload index offset types) := by
    intro types
    induction types with
    | nil => exact fun _ _ => RaisesOnly.of_ok _
    | cons type types ih =>
        intro index offset
        unfold readValues
        split
        · exact (ih _ _).bind fun _ => .of_ok _
        · exact (raisesOnly_readValue payload offset type).bind fun _ =>
            (ih _ _).bind fun _ => .of_ok _
  exact each schema 0 schema.length

theorem raisesOnly_serialize (schema : List ColumnTypes) (values : List Value) :
    RaisesOnly [Value.badVariantAccess, "[Row::Serialize()] invalid column type"]
      (serialize schema values) := by
  let messages := [Value.badVariantAccess, "[Row::Serialize()] invalid column type"]
  have getBool : ∀ value : Value, RaisesOnly messages value.getBool := by
    intro value message failed
    unfold Value.getBool at failed
    split at failed <;> cases failed
    simp [messages]
  have getInt : ∀ value : Value, RaisesOnly messages value.getInt := by
    intro value message failed
    unfold Value.getInt at failed
    split at failed <;> cases failed
    simp [messages]
  have getString : ∀ value : Value, RaisesOnly messages value.getString := by
    intro value message failed
    unfold Value.getString at failed
    split at failed <;> cases failed
    simp [messages]
  have getTimestamp : ∀ value : Value, RaisesOnly messages value.getTimestamp := by
    intro value message failed
    unfold Value.getTimestamp at failed
    split at failed <;> cases failed
    simp [messages]
  have invalid : ∀ {α : Type}, RaisesOnly messages
      (.error "[Row::Serialize()] invalid column type" : Except String α) := by
    intro α message failed
    cases failed
    simp [messages]
  have check : ∀ type value, RaisesOnly messages (checkValue type value) := by
    intro type value
    unfold checkValue
    split
    · exact .of_ok _
    · cases type with
      | bool => exact .of_ok _
      | integer => exact .of_ok _
      | timestamp => exact .of_ok _
      | varchar => exact (getString value).map _
      | varchar2 => exact (getString value).map _
      | _ => exact invalid
  have bytes : ∀ type value, RaisesOnly messages (valueBytes type value) := by
    intro type value
    unfold valueBytes
    split
    · exact .of_ok _
    · cases type with
      | bool => exact (getBool value).map _
      | integer => exact (getInt value).map _
      | timestamp => exact (getTimestamp value).map _
      | varchar => exact (getString value).map _
      | varchar2 => exact (getString value).map _
      | _ => exact invalid
  unfold serialize
  exact (RaisesOnly.forM (fun (type, value) => check type value) _).bind fun _ =>
    (RaisesOnly.mapM (fun (type, value) => bytes type value) _).bind fun _ => .of_ok _

end Row

end YourSQL
