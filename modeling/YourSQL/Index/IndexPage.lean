import Mathlib.Order.Defs.LinearOrder
import YourSQL.Common.Types
import YourSQL.Lib.LowerBound
import YourSQL.Lib.Program

/-! # Pages of the B+ tree

An index page is an object with a header and arrays of its own, and the bytes of its
page. `SetSize` and `SetParentPageId` write to the bytes, `GetSize` and
`GetParentPageId` read the object.
-/

namespace YourSQL

inductive IndexPageType where
  | invalid
  | interval
  | leaf
  deriving Repr, DecidableEq

/-- What a use of a vector behind its end, or a write behind the end of a page, is taken for. -/
def UNDEFINED : String := "undefined behaviour"

/-- `sizeof` of the key, the value and their pair. -/
structure IndexTypes where
  keySize : Nat
  valSize : Nat
  mappingSize : Nat

def INDEX_COMMON_HEADER_SIZE : Nat := 24

def LEAF_EXTRA_HEADER_SIZE : Nat := 8

/-- The object that is stored for a page, as a leaf or as an internal page. -/
structure IndexObject (K V : Type) where
  type : IndexPageType := .invalid
  size : Nat := 0
  maxSize : Nat := 0
  pageId : Nat := 0
  parentPageId : Nat := 0
  /-- `array_` of a leaf. -/
  entries : List (K × V) := []
  /-- `array_` of an internal page. -/
  children : List (K × Nat) := []
  /-- The size, the parent, the next page and the entries in the bytes of the page. -/
  sizeBytes : Nat := 0
  parentBytes : Nat := 0
  nextPageId : Nat := 0
  entryBytes : List (K × V) := []

namespace IndexObject

variable {K V : Type}

/-- `Init` of an index page; a leaf does nothing more that counts. -/
def init (object : IndexObject K V) (type : IndexPageType) (pageId parentId maxSize : Nat) :
    IndexObject K V :=
  { object with
    type := type
    size := 0
    maxSize := maxSize % 2 ^ 16
    pageId := pageId
    parentPageId := parentId
    sizeBytes := 0
    parentBytes := parentId }

def isLeafPage (object : IndexObject K V) : Bool := object.type == .leaf

def getSize (object : IndexObject K V) : Nat := object.size

def getMinSize (_ : IndexObject K V) : Nat := 0

def setSize (object : IndexObject K V) (size : Nat) : IndexObject K V :=
  { object with sizeBytes := size % 2 ^ 16 }

def increaseSize (object : IndexObject K V) (delta : Int) : IndexObject K V :=
  object.setSize ((object.getSize + delta) % 2 ^ 16).toNat

def setParentPageId (object : IndexObject K V) (parentId : Nat) : IndexObject K V :=
  { object with parentBytes := parentId }

def setNextPageId (object : IndexObject K V) (nextPageId : Nat) : IndexObject K V :=
  { object with nextPageId := nextPageId }

/-! ## Leaves -/

/-- `GetMaxSize` of a leaf. -/
def leafMaxSize (types : IndexTypes) : Nat :=
  (PAGE_SIZE - INDEX_COMMON_HEADER_SIZE - LEAF_EXTRA_HEADER_SIZE) / types.mappingSize

variable [LinearOrder K]

/-- `std::lower_bound` in a sorted array. -/
def lowerBound (object : IndexObject K V) (key : K) : Nat :=
  (object.entries.takeWhile fun entry => entry.1 < key).length

/-- `KeyAt` and `ValueAt` of a leaf. -/
def entryAt (object : IndexObject K V) (index : Nat) : Except String (K × V) :=
  match object.entries[index]? with
  | some entry => .ok entry
  | none => .error UNDEFINED

/-- The values of a key from the position of the first one on. -/
def lookup (object : IndexObject K V) (key : K) : Bool × List V :=
  let start := object.lowerBound key
  let found := (object.entries.take object.getSize).drop start
  match found with
  | [] => (false, [])
  | entry :: _ =>
      if entry.1 = key then
        (true, (found.takeWhile fun entry => entry.1 = key).map Prod.snd)
      else
        (false, [])

/-- Each entry takes two lengths, its key and its value. -/
def serializedSize (types : IndexTypes) (entries : List (K × V)) : Nat :=
  INDEX_COMMON_HEADER_SIZE + LEAF_EXTRA_HEADER_SIZE +
    entries.length * (8 + types.keySize + 8 + types.valSize)

def serializeToPage (object : IndexObject K V) (types : IndexTypes) :
    Except String (IndexObject K V) :=
  if serializedSize types object.entries ≤ PAGE_SIZE then
    .ok { object with
      entryBytes := object.entries ++ object.entryBytes.drop object.entries.length }
  else
    .error UNDEFINED

/-- `Insert` of a leaf. -/
def insert (object : IndexObject K V) (types : IndexTypes) (key : K) (val : V) :
    Except String (Bool × IndexObject K V) :=
  if object.getSize ≥ leafMaxSize types then
    .ok (false, object)
  else do
    let position := object.lowerBound key
    let object := { object with
      entries := object.entries.take position ++ (key, val) :: object.entries.drop position }
    let object ← (object.increaseSize 1).serializeToPage types
    return (true, object)

/-- `Remove`: the entry is taken out of the bytes, and stays in the array. -/
def remove (object : IndexObject K V) (key : K) : Bool × IndexObject K V :=
  if object.entries.isEmpty then
    (false, object)
  else
    let used := object.entryBytes.take object.getSize
    match used.findIdx? fun entry => entry.1 = key with
    | none => (false, object)
    | some index =>
        let object := { object with
          entryBytes := object.entryBytes.take index ++ used.drop (index + 1) ++
            object.entryBytes.drop (object.getSize - 1) }
        (true, object.increaseSize (-1))

/-! ## Internal pages -/

/-- `KeyAt` and `ValueAt` of an internal page. -/
def childAt (object : IndexObject K V) (index : Nat) : Except String (K × Nat) :=
  match object.children[index]? with
  | some child => .ok child
  | none => .error UNDEFINED

def setValueAt (object : IndexObject K V) (index child : Nat) :
    Except String (IndexObject K V) := do
  let (key, _) ← object.childAt index
  return { object with children := object.children.set index (key, child) }

def setKeyAt (object : IndexObject K V) (index : Nat) (key : K) :
    Except String (IndexObject K V) := do
  let (_, child) ← object.childAt index
  return { object with children := object.children.set index (key, child) }

def removeChild (object : IndexObject K V) (index : Nat) : Except String (IndexObject K V) :=
  if index ≥ object.children.length then
    .error "BPlusInternalPage::Remove: Invalid index"
  else
    .ok ({ object with children := object.children.eraseIdx index }.increaseSize (-1))

/-- Where `std::lower_bound` stops in `array_`; the first key takes part in the search. -/
def childIndex (object : IndexObject K V) (key : K) : Nat :=
  LowerBound.position (fun child => child.1 < key) object.children

def lookupChild (object : IndexObject K V) (key : K) : Except String Nat := do
  let (_, child) ← object.childAt (object.childIndex key)
  return child

def insertAfter (object : IndexObject K V) (oldChild : Nat) (middleKey : K) (newChild : Nat) :
    IndexObject K V :=
  match object.children.findIdx? fun child => child.2 = oldChild with
  | none => object
  | some index =>
      { object with
        children := object.children.take (index + 1) ++
          (middleKey, newChild) :: object.children.drop (index + 1) }.increaseSize 1

end IndexObject

end YourSQL
