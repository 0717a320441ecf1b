import Mathlib.Data.List.TakeWhile
import YourSQL.Index.IndexPage
import YourSQL.Lib.Memory
import YourSQL.Lib.Program

/-! # Leaf pages as bytes

A `BPlusLeafPage` keeps its entries in `array_` and in the bytes of its page, and its size in
`header_` and in the bytes. The entries stand behind the 32 bytes of the two headers, each
with the lengths of its key and its value; the constructor looks for them behind the first
header.
-/

namespace YourSQL

open Memory

def INDEX_HEADER_TYPE_OFFSET : Nat := 0

def INDEX_HEADER_SIZE_OFFSET : Nat := 1

def INDEX_HEADER_MAX_SIZE_OFFSET : Nat := 3

def INDEX_HEADER_PAGE_ID_OFFSET : Nat := 5

def INDEX_HEADER_PARENT_PAGE_ID_OFFSET : Nat := 13

def IndexPageType.toByte : IndexPageType → UInt8
  | .invalid => 0
  | .interval => 1
  | .leaf => 2

structure IndexPageHeader where
  type : IndexPageType := .invalid
  size : Nat := 0
  maxSize : Nat := 0
  pageId : UInt64 := 0
  parentPageId : UInt64 := 0
  deriving Repr, DecidableEq

/-- The key type, the value type, and `sizeof` of their pair. -/
structure LeafTypes (K V : Type) where
  key : FixedSize K
  val : FixedSize V
  mappingSize : Nat

namespace LeafTypes

variable {K V : Type} (types : LeafTypes K V)

def sizes : IndexTypes where
  keySize := types.key.size
  valSize := types.val.size
  mappingSize := types.mappingSize

/-- The bytes of an entry in a page. -/
def entrySize : Nat := 8 + types.key.size + 8 + types.val.size

/-- `GetMaxSize`. -/
def maxSize : Nat := IndexObject.leafMaxSize types.sizes

end LeafTypes

structure BPlusLeafPage (K V : Type) where
  header : IndexPageHeader := {}
  /-- `array_`. -/
  array : List (K × V) := []
  /-- The bytes of the page. -/
  data : List UInt8

namespace BPlusLeafPage

variable {K V : Type}

/-- Where the entries of a page begin. -/
def ENTRIES_OFFSET : Nat := INDEX_COMMON_HEADER_SIZE + LEAF_EXTRA_HEADER_SIZE

def memcpy (leaf : BPlusLeafPage K V) (offset : Nat) (bytes : List UInt8) : BPlusLeafPage K V :=
  { leaf with data := Bytes.write leaf.data offset bytes }

def getSize (leaf : BPlusLeafPage K V) : Nat := leaf.header.size

/-- `IndexPage::Init`; a leaf does nothing more that counts. -/
def init (leaf : BPlusLeafPage K V) (pageId parentId : UInt64) (maxSize : Nat) :
    BPlusLeafPage K V :=
  { ((((leaf.memcpy INDEX_HEADER_TYPE_OFFSET [IndexPageType.leaf.toByte]).memcpy
      INDEX_HEADER_SIZE_OFFSET (Bytes.ofNat 2 0)).memcpy
      INDEX_HEADER_MAX_SIZE_OFFSET (Bytes.ofNat 2 maxSize)).memcpy
      INDEX_HEADER_PAGE_ID_OFFSET (Bytes.ofNat 8 pageId.toNat)).memcpy
      INDEX_HEADER_PARENT_PAGE_ID_OFFSET (Bytes.ofNat 8 parentId.toNat) with
    header :=
      { type := .leaf
        size := 0
        maxSize := maxSize % 2 ^ 16
        pageId := pageId
        parentPageId := parentId } }

def setSize (leaf : BPlusLeafPage K V) (size : Nat) : BPlusLeafPage K V :=
  leaf.memcpy INDEX_HEADER_SIZE_OFFSET (Bytes.ofNat 2 size)

def increaseSize (leaf : BPlusLeafPage K V) (delta : Int) : BPlusLeafPage K V :=
  leaf.setSize ((leaf.getSize + delta) % 2 ^ 16).toNat

def getNextPageId (leaf : BPlusLeafPage K V) : UInt64 :=
  UInt64.ofNat (Bytes.toNat (Bytes.field leaf.data INDEX_COMMON_HEADER_SIZE 8))

def setNextPageId (leaf : BPlusLeafPage K V) (nextPageId : UInt64) : BPlusLeafPage K V :=
  leaf.memcpy INDEX_COMMON_HEADER_SIZE (Bytes.ofNat 8 nextPageId.toNat)

/-- `KeyAt` and `ValueAt`. -/
def entryAt (leaf : BPlusLeafPage K V) (index : Nat) : Except Fault (K × V) :=
  match leaf.array[index]? with
  | some entry => .ok entry
  | none => .error .outside

variable (types : LeafTypes K V)

/-! ## The constructor -/

/-- A round of the loop: of the value it copies as many bytes as its length takes. -/
def loadEntry (data : List UInt8) (offset : Nat) : Except Fault ((K × V) × Nat) := do
  let len := Bytes.toNat (← read data offset 8)
  let key ← types.key.ofBytes (← read data (offset + 8) len)
  let vlen := Bytes.toNat (← read data (offset + 8 + len) 8)
  let val ← types.val.ofBytes (← read data (offset + 8 + len + 8) 8)
  return ((key, val), offset + 8 + len + 8 + vlen)

def loadEntries (data : List UInt8) : (size offset : Nat) → Except Fault (List (K × V))
  | 0, _ => return []
  | size + 1, offset => do
      let (entry, offset) ← loadEntry types data offset
      return entry :: (← loadEntries data size offset)

/-- A new object for a page. -/
def construct (data : List UInt8) : Except Fault (BPlusLeafPage K V) := do
  let leaf : BPlusLeafPage K V := { data := data }
  if leaf.getSize ≤ 0 then
    return leaf
  else
    return { leaf with array := ← loadEntries types data leaf.getSize INDEX_COMMON_HEADER_SIZE }

/-! ## The entries in the page -/

/-- `SerializeToPage` from an offset on. -/
def serialize : List (K × V) → (offset : Nat) → (data : List UInt8) → Except Fault (List UInt8)
  | [], _, data => return data
  | (key, val) :: rest, offset, data => do
      let data ← write data offset (Bytes.ofNat 8 types.key.size)
      let data ← write data (offset + 8) (types.key.encode key)
      let data ← write data (offset + 8 + types.key.size) (Bytes.ofNat 8 types.val.size)
      let data ← write data (offset + 8 + types.key.size + 8) (types.val.encode val)
      serialize rest (offset + types.entrySize) data

def serializeToPage (leaf : BPlusLeafPage K V) : Except Fault (BPlusLeafPage K V) := do
  return { leaf with data := ← serialize types leaf.array ENTRIES_OFFSET leaf.data }

/-- The entry at an offset and the offset behind it, as `Remove` reads them. -/
def readEntry (data : List UInt8) (current : Nat) : Except Fault ((K × V) × Nat) := do
  let keyLen := Bytes.toNat (← read data current 8)
  let key ← types.key.ofBytes (← read data (current + 8) keyLen)
  let valLen := Bytes.toNat (← read data (current + 8 + keyLen) 8)
  let val ← types.val.ofBytes (← read data (current + 8 + keyLen + 8) valLen)
  return ((key, val), current + 8 + keyLen + 8 + valLen)

/-- Where the entries end, of which so many are left, in `GetUsedBytes`. -/
def usedFrom (data : List UInt8) : (left current : Nat) → Except Fault Nat
  | 0, current => return current
  | left + 1, current => do
      let keyLen := Bytes.toNat (← read data current 8)
      let valLen := Bytes.toNat (← read data (current + 8 + keyLen) 8)
      usedFrom data left (current + 8 + keyLen + 8 + valLen)

def getUsedBytes (leaf : BPlusLeafPage K V) : Except Fault Nat := do
  return (← usedFrom leaf.data leaf.getSize ENTRIES_OFFSET) - ENTRIES_OFFSET

/-- The loop of `Remove` over the entries that are left: the bytes behind the entry of the
    key are moved to its place. -/
def removeFrom [DecidableEq K] (leaf : BPlusLeafPage K V) (key : K) :
    (left current : Nat) → Except Fault (Nat × BPlusLeafPage K V)
  | 0, _ => return (0, leaf)
  | left + 1, current => do
      let (entry, behind) ← readEntry types leaf.data current
      if entry.1 = key then
        let dataEnd := ENTRIES_OFFSET + (← leaf.getUsedBytes)
        let remaining ← read leaf.data behind (dataEnd - behind)
        let data ← write leaf.data current remaining
        return (1, { leaf with data := data }.increaseSize (-1))
      else
        removeFrom leaf key left behind

def remove [DecidableEq K] (leaf : BPlusLeafPage K V) (key : K) :
    Except Fault (Nat × BPlusLeafPage K V) :=
  if leaf.array.isEmpty then
    return (0, leaf)
  else
    removeFrom types leaf key leaf.getSize ENTRIES_OFFSET

/-! ## The entries in the array -/

variable [LinearOrder K]

/-- `LowerBound`. -/
def lowerBound (leaf : BPlusLeafPage K V) (key : K) : Nat :=
  LowerBound.position (fun entry => entry.1 < key) leaf.array

/-- The loop of `Lookup` over the positions that are left. -/
def valuesFrom (leaf : BPlusLeafPage K V) (key : K) :
    (left index : Nat) → Except Fault (List V)
  | 0, _ => return []
  | left + 1, index => do
      let entry ← leaf.entryAt index
      if entry.1 = key then
        return entry.2 :: (← valuesFrom leaf key left (index + 1))
      else
        return []

/-- `Lookup`: whether the key was found, and its values. -/
def lookup (leaf : BPlusLeafPage K V) (key : K) : Except Fault (Bool × List V) := do
  if leaf.array.isEmpty then
    return (false, [])
  else
    let start := leaf.lowerBound key
    if start ≥ leaf.getSize then
      return (false, [])
    else
      let entry ← leaf.entryAt start
      if entry.1 ≠ key then
        return (false, [])
      else
        return (true, ← valuesFrom leaf key (leaf.getSize - start) start)

/-- The array with an entry in front of those of its key. -/
def insertEntry (leaf : BPlusLeafPage K V) (key : K) (val : V) : BPlusLeafPage K V :=
  let position := leaf.lowerBound key
  { leaf with array := leaf.array.take position ++ (key, val) :: leaf.array.drop position }

def insert (leaf : BPlusLeafPage K V) (key : K) (val : V) :
    Except Fault (Bool × BPlusLeafPage K V) :=
  if leaf.getSize ≥ types.maxSize then
    return (false, leaf)
  else do
    let leaf ← ((leaf.insertEntry key val).increaseSize 1).serializeToPage types
    return (true, leaf)

theorem length_insertEntry (leaf : BPlusLeafPage K V) (key : K) (val : V) :
    (leaf.insertEntry key val).array.length = leaf.array.length + 1 := by
  have bound : leaf.lowerBound key ≤ leaf.array.length := LowerBound.le_length
  simp only [insertEntry, List.length_append, List.length_cons, List.length_take, List.length_drop]
  omega

/-! ## The header -/

section Header

omit [LinearOrder K]

variable {leaf : BPlusLeafPage K V}

theorem memcpy_page {offset : Nat} {bytes : List UInt8} (page : leaf.data.length = PAGE_SIZE)
    (inside : offset + bytes.length ≤ PAGE_SIZE) :
    (leaf.memcpy offset bytes).data.length = PAGE_SIZE := by
  rw [← page] at inside ⊢
  exact Bytes.length_write inside

theorem init_page (page : leaf.data.length = PAGE_SIZE) (pageId parentId : UInt64)
    (maxSize : Nat) : (leaf.init pageId parentId maxSize).data.length = PAGE_SIZE := by
  apply memcpy_page
  · apply memcpy_page
    · apply memcpy_page
      · apply memcpy_page
        · apply memcpy_page page
          simp [INDEX_HEADER_TYPE_OFFSET, PAGE_SIZE]
        · simp [INDEX_HEADER_SIZE_OFFSET, PAGE_SIZE]
      · simp [INDEX_HEADER_MAX_SIZE_OFFSET, PAGE_SIZE]
    · simp [INDEX_HEADER_PAGE_ID_OFFSET, PAGE_SIZE]
  · simp [INDEX_HEADER_PARENT_PAGE_ID_OFFSET, PAGE_SIZE]

/-- What is written behind the size leaves it alone. -/
theorem sizeField_memcpy {offset : Nat} {bytes : List UInt8} (page : leaf.data.length = PAGE_SIZE)
    (behind : INDEX_HEADER_SIZE_OFFSET + 2 ≤ offset) :
    Bytes.field (leaf.memcpy offset bytes).data INDEX_HEADER_SIZE_OFFSET 2 =
      Bytes.field leaf.data INDEX_HEADER_SIZE_OFFSET 2 :=
  Bytes.field_write_before (by rw [page]; decide) behind

theorem sizeField_init (page : leaf.data.length = PAGE_SIZE) (pageId parentId : UInt64)
    (maxSize : Nat) :
    Bytes.field (leaf.init pageId parentId maxSize).data INDEX_HEADER_SIZE_OFFSET 2 =
      Bytes.ofNat 2 0 := by
  have typed := @memcpy_page K V leaf INDEX_HEADER_TYPE_OFFSET [IndexPageType.leaf.toByte] page
    (by decide)
  have sized := @memcpy_page K V _ INDEX_HEADER_SIZE_OFFSET (Bytes.ofNat 2 0) typed (by decide)
  have bounded := @memcpy_page K V _ INDEX_HEADER_MAX_SIZE_OFFSET (Bytes.ofNat 2 maxSize) sized
    (by simp [INDEX_HEADER_MAX_SIZE_OFFSET, PAGE_SIZE])
  have named := @memcpy_page K V _ INDEX_HEADER_PAGE_ID_OFFSET (Bytes.ofNat 8 pageId.toNat) bounded
    (by simp [INDEX_HEADER_PAGE_ID_OFFSET, PAGE_SIZE])
  calc Bytes.field (leaf.init pageId parentId maxSize).data INDEX_HEADER_SIZE_OFFSET 2
      = Bytes.field ((leaf.memcpy INDEX_HEADER_TYPE_OFFSET [IndexPageType.leaf.toByte]).memcpy
          INDEX_HEADER_SIZE_OFFSET (Bytes.ofNat 2 0)).data INDEX_HEADER_SIZE_OFFSET 2 :=
        ((sizeField_memcpy named (by decide)).trans (sizeField_memcpy bounded (by decide))).trans
          (sizeField_memcpy sized (by decide))
    _ = Bytes.ofNat 2 0 := by
        have self := @Bytes.field_write_self
          (leaf.memcpy INDEX_HEADER_TYPE_OFFSET [IndexPageType.leaf.toByte]).data (Bytes.ofNat 2 0)
          INDEX_HEADER_SIZE_OFFSET (by rw [typed]; decide)
        rwa [Bytes.length_ofNat] at self

theorem setSize_page (page : leaf.data.length = PAGE_SIZE) (size : Nat) :
    (leaf.setSize size).data.length = PAGE_SIZE := by
  apply memcpy_page page
  simp [INDEX_HEADER_SIZE_OFFSET, PAGE_SIZE]

theorem setNextPageId_page (page : leaf.data.length = PAGE_SIZE) (nextPageId : UInt64) :
    (leaf.setNextPageId nextPageId).data.length = PAGE_SIZE := by
  apply memcpy_page page
  simp [INDEX_COMMON_HEADER_SIZE, PAGE_SIZE]

theorem getNextPageId_of_field {nextPageId : UInt64}
    (stored : Bytes.field leaf.data INDEX_COMMON_HEADER_SIZE 8 = Bytes.ofNat 8 nextPageId.toNat) :
    leaf.getNextPageId = nextPageId := by
  have small := nextPageId.toNat_lt
  rw [getNextPageId, stored, Bytes.toNat_ofNat_of_lt (by omega), UInt64.ofNat_toNat]

theorem getNextPageId_setNextPageId (page : leaf.data.length = PAGE_SIZE) (nextPageId : UInt64) :
    (leaf.setNextPageId nextPageId).getNextPageId = nextPageId := by
  apply getNextPageId_of_field
  have := @Bytes.field_write_self leaf.data (Bytes.ofNat 8 nextPageId.toNat) INDEX_COMMON_HEADER_SIZE
    (by rw [page]; simp [INDEX_COMMON_HEADER_SIZE, PAGE_SIZE])
  rwa [Bytes.length_ofNat] at this

/-- The size stands in front of the next page id. -/
theorem getNextPageId_setSize (page : leaf.data.length = PAGE_SIZE) (size : Nat) :
    (leaf.setSize size).getNextPageId = leaf.getNextPageId := by
  have apart := @Bytes.field_write_behind leaf.data (Bytes.ofNat 2 size) INDEX_HEADER_SIZE_OFFSET
    INDEX_COMMON_HEADER_SIZE 8 (by rw [page]; simp [INDEX_HEADER_SIZE_OFFSET, PAGE_SIZE])
    (by simp [INDEX_HEADER_SIZE_OFFSET, INDEX_COMMON_HEADER_SIZE])
  rw [getNextPageId, setSize, memcpy, apart, getNextPageId]

end Header

/-! ## Entries as bytes -/

omit [LinearOrder K]

/-- The bytes of an entry. -/
def encodeEntry (entry : K × V) : List UInt8 :=
  Bytes.ofNat 8 types.key.size ++ types.key.encode entry.1 ++ Bytes.ofNat 8 types.val.size ++
    types.val.encode entry.2

def encodeEntries (entries : List (K × V)) : List UInt8 := entries.flatMap (encodeEntry types)

/-- So many entries that stand one behind the other. -/
def readEntries (data : List UInt8) : (left current : Nat) → Except Fault (List (K × V))
  | 0, _ => return []
  | left + 1, current => do
      let (entry, behind) ← readEntry types data current
      return entry :: (← readEntries data left behind)

variable {types} {data tail : List UInt8} {offset : Nat}

@[simp] theorem length_encodeEntry (entry : K × V) :
    (encodeEntry types entry).length = types.entrySize := by
  simp only [encodeEntry, List.length_append, Bytes.length_ofNat, types.key.length_encode,
    types.val.length_encode, LeafTypes.entrySize]

@[simp] theorem length_encodeEntries (entries : List (K × V)) :
    (encodeEntries types entries).length = entries.length * types.entrySize := by
  induction entries with
  | nil => simp [encodeEntries]
  | cons entry entries ih =>
      unfold encodeEntries at ih ⊢
      rw [List.flatMap_cons, List.length_append, ih, length_encodeEntry, List.length_cons,
        Nat.succ_mul, Nat.add_comm]

/-- The four copies of an entry are one. -/
theorem serialize_cons (entry : K × V) (entries : List (K × V)) (offset : Nat) (data : List UInt8) :
    serialize types (entry :: entries) offset data = (do
      let data ← write data offset (encodeEntry types entry)
      serialize types entries (offset + types.entrySize) data) := by
  rw [encodeEntry, ← write_bind_write, ← write_bind_write, ← write_bind_write]
  simp only [List.length_append, Bytes.length_ofNat, types.key.length_encode, ← Nat.add_assoc,
    bind_assoc]
  rfl

/-- `SerializeToPage` is one copy of all entries. -/
theorem serialize_eq {entries : List (K × V)} (inside : offset ≤ data.length) :
    serialize types entries offset data = write data offset (encodeEntries types entries) := by
  induction entries generalizing offset data with
  | nil =>
      rw [write_of_inside (by simpa [encodeEntries] using inside)]
      simp [serialize, encodeEntries, Bytes.write, pure, Except.pure]
  | cons entry entries ih =>
      rw [serialize_cons, encodeEntries, List.flatMap_cons, ← write_bind_write, length_encodeEntry]
      cases Nat.lt_or_ge data.length (offset + types.entrySize) with
      | inl outside =>
          rw [write_of_outside (by rwa [length_encodeEntry])]
          rfl
      | inr room =>
          have fits : offset + (encodeEntry types entry).length ≤ data.length := by
            rwa [length_encodeEntry]
          rw [write_of_inside fits]
          apply ih
          rwa [Bytes.length_write fits]

/-- `Remove` reads back what was serialised. -/
theorem readEntry_of_drop {entry : K × V} (inside : offset ≤ data.length)
    (rest : data.drop offset = encodeEntry types entry ++ tail) :
    readEntry types data offset = .ok (entry, offset + types.entrySize) ∧
      offset + types.entrySize ≤ data.length ∧ data.drop (offset + types.entrySize) = tail := by
  simp only [encodeEntry, List.append_assoc] at rest
  obtain ⟨keyLen, inside, rest⟩ := read_of_drop inside rest
  rw [Bytes.length_ofNat] at keyLen inside rest
  obtain ⟨key, inside, rest⟩ := read_of_drop inside rest
  rw [types.key.length_encode] at key inside rest
  obtain ⟨valLen, inside, rest⟩ := read_of_drop inside rest
  rw [Bytes.length_ofNat] at valLen inside rest
  obtain ⟨val, inside, rest⟩ := read_of_drop inside rest
  rw [types.val.length_encode] at val inside rest
  have keySmall := types.key.size_lt
  have valSmall := types.val.size_lt
  have whole : offset + types.entrySize = offset + 8 + types.key.size + 8 + types.val.size := by
    simp only [LeafTypes.entrySize]
    omega
  refine ⟨?_, by rwa [whole], by rwa [whole]⟩
  have keySize := @Bytes.toNat_ofNat_of_lt 8 types.key.size (by omega)
  have valSize := @Bytes.toNat_ofNat_of_lt 8 types.val.size (by omega)
  unfold readEntry
  rw [keyLen, whole]
  simp only [Except.ok_bind, keySize, key, FixedSize.ofBytes_encode, valLen, valSize, val]
  rfl

theorem readEntries_of_drop {entries : List (K × V)} (inside : offset ≤ data.length)
    (rest : data.drop offset = encodeEntries types entries ++ tail) :
    readEntries types data entries.length offset = .ok entries := by
  induction entries generalizing offset with
  | nil => rfl
  | cons entry entries ih =>
      rw [encodeEntries, List.flatMap_cons, List.append_assoc] at rest
      obtain ⟨first, inside, behind⟩ := readEntry_of_drop inside rest
      rw [List.length_cons, readEntries, first]
      change (do return entry :: (← readEntries types data entries.length (offset + types.entrySize))) = _
      rw [ih inside behind]
      rfl

end BPlusLeafPage

end YourSQL
