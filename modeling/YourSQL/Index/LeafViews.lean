import YourSQL.Index.LeafPage
import YourSQL.Index.Multimap

/-! # The views of a leaf

What `GetSize`, `Lookup`, `Remove` and a new object for the page go by is the size in
`header_`, which no call of a leaf changes once it is 0. The array, the bytes behind the
headers and the next page id keep what was inserted, all of it.
-/

namespace YourSQL

open Memory

inductive LeafCall (K V : Type) where
  | insert (key : K) (val : V)
  | remove (key : K)
  deriving Repr, DecidableEq

namespace LeafCall

variable {K V : Type} [LinearOrder K]

/-- The entries that are present after a call: a new one stands in front of those of its
    key, and of those of a key the first one is removed. -/
def present (capacity : Nat) (entries : List (K × V)) : LeafCall K V → List (K × V)
  | .insert key val =>
      if entries.length < capacity then
        entries.takeWhile (fun entry => entry.1 < key) ++
          (key, val) :: entries.dropWhile (fun entry => entry.1 < key)
      else
        entries
  | .remove key => entries.eraseP fun entry => entry.1 = key

end LeafCall

namespace BPlusLeafPage

variable {K V : Type} [LinearOrder K] (types : LeafTypes K V)

/-- A new object for a page, with its header and the page behind it. -/
def opened (page : PageBytes) (pageId parentId : UInt64) (maxSize : Nat) (nextPageId : UInt64) :
    Except Fault (BPlusLeafPage K V) := do
  let leaf ← construct types page.1
  return (leaf.init pageId parentId maxSize).setNextPageId nextPageId

def perform (leaf : BPlusLeafPage K V) : LeafCall K V → Except Fault (BPlusLeafPage K V)
  | .insert key val => return (← leaf.insert types key val).2
  | .remove key => return (← leaf.remove types key).2

/-- One insertion after the other. -/
def insertAll : BPlusLeafPage K V → List (K × V) → Except Fault (BPlusLeafPage K V)
  | leaf, [] => return leaf
  | leaf, entry :: rest => do insertAll (← perform types leaf (.insert entry.1 entry.2)) rest

/-- The entries that the page has by the size in its bytes. -/
def storedEntries (data : List UInt8) : Except Fault (List (K × V)) :=
  readEntries types data (Bytes.toNat (Bytes.field data INDEX_HEADER_SIZE_OFFSET 2)) ENTRIES_OFFSET

/-- All views of a leaf show the entries that are present, in the order of their keys. -/
structure Coherent (leaf : BPlusLeafPage K V) (nextPageId : UInt64) (entries : List (K × V)) :
    Prop where
  ascending : entries.Pairwise fun entry later => entry.1 ≤ later.1
  size : leaf.getSize = entries.length
  array : leaf.array = entries
  stored : storedEntries types leaf.data = .ok entries
  reloaded : ∃ view : BPlusLeafPage K V, construct types leaf.data = .ok view ∧ view.array = entries
  lookup : ∀ key, leaf.lookup key =
    .ok (!(Multimap.valuesOf entries key).isEmpty, Multimap.valuesOf entries key)
  nextPageId : leaf.getNextPageId = nextPageId

/-- The leaf is coherent before and after each call of a sequence. -/
def CoherentRun (nextPageId : UInt64) :
    BPlusLeafPage K V → List (K × V) → List (LeafCall K V) → Prop
  | leaf, entries, [] => Coherent types leaf nextPageId entries
  | leaf, entries, call :: rest => Coherent types leaf nextPageId entries ∧
      ∃ after, perform types leaf call = .ok after ∧
        CoherentRun nextPageId after (call.present types.maxSize entries) rest

/-- What every leaf keeps: its size is 0, the bytes behind its headers are those of its
    array, which is in the order of the keys, and the next page id is the one that was set. -/
structure Kept (leaf : BPlusLeafPage K V) (nextPageId : UInt64) : Prop where
  size : leaf.header.size = 0
  page : leaf.data.length = PAGE_SIZE
  ascending : leaf.array.Pairwise fun entry later => entry.1 ≤ later.1
  written : ∃ tail, leaf.data.drop ENTRIES_OFFSET = encodeEntries types leaf.array ++ tail
  nextPageId : leaf.getNextPageId = nextPageId

variable {types} {leaf after : BPlusLeafPage K V} {nextPageId : UInt64} {key : K} {val : V}

omit [LinearOrder K] in
/-- A new object has no size yet when it looks for one. -/
@[simp] theorem construct_eq (data : List UInt8) :
    construct types data = .ok ({ data := data } : BPlusLeafPage K V) := rfl

theorem entries_inside {data : List UInt8} (page : data.length = PAGE_SIZE) :
    ENTRIES_OFFSET ≤ data.length := by
  rw [page]
  simp [ENTRIES_OFFSET, INDEX_COMMON_HEADER_SIZE, LEAF_EXTRA_HEADER_SIZE, PAGE_SIZE]

namespace Kept

/-! ## What a call does -/

theorem getSize (kept : Kept types leaf nextPageId) : leaf.getSize = 0 := kept.size

/-- The whole array can be read from the page by one who knows how many entries it has. -/
theorem readEntries (kept : Kept types leaf nextPageId) :
    BPlusLeafPage.readEntries types leaf.data leaf.array.length ENTRIES_OFFSET = .ok leaf.array := by
  obtain ⟨tail, written⟩ := kept.written
  exact readEntries_of_drop (entries_inside kept.page) written

/-- No entry is found. -/
theorem lookup (kept : Kept types leaf nextPageId) (key : K) :
    leaf.lookup key = .ok (false, []) := by
  unfold BPlusLeafPage.lookup
  rw [kept.getSize]
  cases leaf.array.isEmpty with
  | true => rfl
  | false => rfl

/-- No entry is looked at, and none is removed. -/
theorem remove (kept : Kept types leaf nextPageId) (key : K) :
    leaf.remove types key = .ok (0, leaf) := by
  unfold BPlusLeafPage.remove
  rw [kept.getSize]
  cases leaf.array.isEmpty with
  | true => rfl
  | false => rfl

theorem insert_refused (kept : Kept types leaf nextPageId) (none : types.maxSize = 0) (key : K)
    (val : V) : leaf.insert types key val = .ok (false, leaf) := by
  unfold BPlusLeafPage.insert
  rw [kept.getSize, none]
  rfl

theorem partitioned (kept : Kept types leaf nextPageId) (key : K) :
    leaf.array.Pairwise fun entry later =>
      decide (later.1 < key) = true → decide (entry.1 < key) = true := by
  refine kept.ascending.imp fun {entry later} le => ?_
  simp only [decide_eq_true_eq]
  exact lt_of_le_of_lt le

theorem insertEntry_ascending (kept : Kept types leaf nextPageId) (key : K) (val : V) :
    (leaf.insertEntry key val).array.Pairwise fun entry later => entry.1 ≤ later.1 := by
  have below : ∀ entry ∈ leaf.array.take (leaf.lowerBound key), entry.1 < key := by
    intro entry member
    simpa using LowerBound.before_of_mem_take (kept.partitioned key) member
  have above : ∀ entry ∈ leaf.array.drop (leaf.lowerBound key), key ≤ entry.1 := by
    intro entry member
    simpa using LowerBound.not_before_of_mem_drop (kept.partitioned key) member
  have ascending := kept.ascending
  rw [← List.take_append_drop (leaf.lowerBound key) leaf.array] at ascending
  obtain ⟨front, back, across⟩ := List.pairwise_append.mp ascending
  apply List.pairwise_append.mpr
  refine ⟨front, List.pairwise_cons.mpr ⟨above, back⟩, fun entry early later late => ?_⟩
  cases List.mem_cons.mp late with
  | inl new =>
      rw [new]
      exact le_of_lt (below entry early)
  | inr old => exact across entry early later old

/-- The size in the bytes, whatever it was, becomes 1, and all entries are written again. -/
theorem insert_eq (kept : Kept types leaf nextPageId) (some : 0 < types.maxSize) (key : K)
    (val : V) :
    leaf.insert types key val = (do
      let data ← write (leaf.setSize 1).data ENTRIES_OFFSET
        (encodeEntries types (leaf.insertEntry key val).array)
      return (true, { leaf.insertEntry key val with data := data })) := by
  have inside := entries_inside (setSize_page kept.page 1)
  have size : (leaf.insertEntry key val).increaseSize 1 = (leaf.insertEntry key val).setSize 1 := by
    have header : (leaf.insertEntry key val).getSize = 0 := kept.size
    rw [increaseSize, header]
    rfl
  rw [insert, if_neg (by rw [kept.getSize]; omega), size, serializeToPage]
  change (do
    let leaf ← (do
      let data ← serialize types (leaf.insertEntry key val).array ENTRIES_OFFSET (leaf.setSize 1).data
      return { leaf.insertEntry key val with data := data })
    return (true, leaf)) = _
  rw [serialize_eq inside, bind_assoc]
  rfl

/-- The array and the page stay the same list where the page has room for it, and else the
    bytes go beyond the page. -/
theorem insert_cases (kept : Kept types leaf nextPageId) (some : 0 < types.maxSize) (key : K)
    (val : V) :
    if ENTRIES_OFFSET + (leaf.array.length + 1) * types.entrySize ≤ PAGE_SIZE then
      ∃ after, leaf.insert types key val = .ok (true, after) ∧ Kept types after nextPageId ∧
        after.array = (leaf.insertEntry key val).array
    else
      leaf.insert types key val = .error .outside := by
  have page := setSize_page kept.page 1
  have size : (encodeEntries types (leaf.insertEntry key val).array).length =
      (leaf.array.length + 1) * types.entrySize := by
    rw [length_encodeEntries, length_insertEntry]
  rw [kept.insert_eq some]
  split
  · rename_i room
    have fits : ENTRIES_OFFSET + (encodeEntries types (leaf.insertEntry key val).array).length ≤
        (leaf.setSize 1).data.length := by rwa [size, page]
    rw [write_of_inside fits]
    refine ⟨_, rfl, ⟨kept.size, ?_, kept.insertEntry_ascending key val, ?_, ?_⟩, rfl⟩
    · rw [← page]
      exact Bytes.length_write fits
    · exact ⟨_, Bytes.drop_write_self (Nat.le_trans (Nat.le_add_right _ _) fits)⟩
    · rw [← kept.nextPageId, ← getNextPageId_setSize kept.page 1]
      unfold getNextPageId
      rw [Bytes.field_write_before (by rw [page]; decide) (by decide)]
  · rename_i full
    rw [write_of_outside (by rw [size, page]; omega)]
    rfl

/-- A call that has a result keeps all of that. -/
theorem perform (kept : Kept types leaf nextPageId) {call : LeafCall K V}
    (performed : BPlusLeafPage.perform types leaf call = .ok after) : Kept types after nextPageId := by
  cases call with
  | remove key =>
      rw [BPlusLeafPage.perform, kept.remove] at performed
      cases performed
      exact kept
  | insert key val =>
      cases Nat.eq_zero_or_pos types.maxSize with
      | inl none =>
          rw [BPlusLeafPage.perform, kept.insert_refused none] at performed
          cases performed
          exact kept
      | inr some =>
          have cases := kept.insert_cases some key val
          split at cases
          · obtain ⟨inserted, result, keeps, -⟩ := cases
            rw [BPlusLeafPage.perform, result] at performed
            cases performed
            exact keeps
          · rw [BPlusLeafPage.perform, cases] at performed
            cases performed

end Kept

/-! ## The views -/

/-- A leaf without entries is coherent. -/
theorem Kept.coherent (kept : Kept types leaf nextPageId) (empty : leaf.array = [])
    (stored : Bytes.field leaf.data INDEX_HEADER_SIZE_OFFSET 2 = Bytes.ofNat 2 0) :
    Coherent types leaf nextPageId [] where
  ascending := .nil
  size := kept.size
  array := empty
  stored := by
    rw [storedEntries, stored]
    rfl
  reloaded := ⟨_, construct_eq leaf.data, rfl⟩
  lookup key := kept.lookup key
  nextPageId := kept.nextPageId

theorem opened_eq (types : LeafTypes K V) (page : PageBytes) (pageId parentId : UInt64)
    (maxSize : Nat) (nextPageId : UInt64) :
    ∃ leaf : BPlusLeafPage K V, opened types page pageId parentId maxSize nextPageId = .ok leaf ∧
      Kept types leaf nextPageId ∧ Coherent types leaf nextPageId [] := by
  have length := @init_page K V { data := page.1 } page.2 pageId parentId maxSize
  have size := @sizeField_init K V { data := page.1 } page.2 pageId parentId maxSize
  have kept : Kept types ((({ data := page.1 } : BPlusLeafPage K V).init pageId parentId
      maxSize).setNextPageId nextPageId) nextPageId :=
    { size := rfl
      page := setNextPageId_page length nextPageId
      ascending := .nil
      written := ⟨_, rfl⟩
      nextPageId := getNextPageId_setNextPageId length nextPageId }
  exact ⟨_, rfl, kept, kept.coherent rfl ((sizeField_memcpy length (by decide)).trans size)⟩

theorem CoherentRun.coherent {entries : List (K × V)} {calls : List (LeafCall K V)}
    (run : CoherentRun types nextPageId leaf entries calls) :
    Coherent types leaf nextPageId entries := by
  cases calls with
  | nil => exact run
  | cons call rest => exact run.1

/-- After the first insertion the size is one short. -/
theorem Kept.coherentRun_iff (kept : Kept types leaf nextPageId)
    (coherent : Coherent types leaf nextPageId []) (calls : List (LeafCall K V)) :
    CoherentRun types nextPageId leaf [] calls ↔
      types.maxSize = 0 ∨ ∀ call ∈ calls, ∃ key, call = .remove key := by
  induction calls with
  | nil =>
      constructor
      · intro _
        exact .inr (List.forall_mem_nil _)
      · intro _
        exact coherent
  | cons call rest ih =>
      cases call with
      | remove key =>
          have performed : BPlusLeafPage.perform types leaf (.remove key) = .ok leaf := by
            rw [BPlusLeafPage.perform, kept.remove]
            rfl
          have removed : (∀ call ∈ LeafCall.remove key :: rest, ∃ key, call = LeafCall.remove key) ↔
              ∀ call ∈ rest, ∃ key, call = LeafCall.remove (V := V) key := by
            rw [List.forall_mem_cons]
            exact and_iff_right ⟨key, rfl⟩
          rw [removed, ← ih, CoherentRun, performed]
          constructor
          · intro ⟨_, after, same, run⟩
            cases same
            exact run
          · intro run
            exact ⟨coherent, leaf, rfl, run⟩
      | insert key val =>
          cases Nat.eq_zero_or_pos types.maxSize with
          | inl none =>
              have performed : BPlusLeafPage.perform types leaf (.insert key val) = .ok leaf := by
                rw [BPlusLeafPage.perform, kept.insert_refused none]
                rfl
              have run := ih.mpr (.inl none)
              constructor
              · intro _
                exact .inl none
              · intro _
                refine ⟨coherent, leaf, performed, ?_⟩
                rwa [LeafCall.present, if_neg (by rw [none]; exact Nat.not_lt_zero _)]
          | inr some =>
              constructor
              · intro ⟨_, after, performed, run⟩
                have size := run.coherent.size
                rw [LeafCall.present, if_pos (show [].length < _ from some),
                  (kept.perform performed).getSize] at size
                cases size
              · intro spared
                cases spared with
                | inl none => omega
                | inr removes =>
                    obtain ⟨key, same⟩ := removes _ (List.mem_cons_self ..)
                    cases same

/-- The views of a leaf stay coherent exactly where no insertion is accepted. -/
theorem leaf_coherent_iff (types : LeafTypes K V) (page : PageBytes) (pageId parentId : UInt64)
    (maxSize : Nat) (nextPageId : UInt64) (calls : List (LeafCall K V)) :
    (∃ leaf, opened types page pageId parentId maxSize nextPageId = .ok leaf ∧
        CoherentRun types nextPageId leaf [] calls) ↔
      types.maxSize = 0 ∨ ∀ call ∈ calls, ∃ key, call = .remove key := by
  obtain ⟨leaf, opens, kept, coherent⟩ :=
    opened_eq types page pageId parentId maxSize nextPageId
  rw [← kept.coherentRun_iff coherent]
  constructor
  · intro ⟨leaf', opens', run⟩
    rw [opens] at opens'
    cases opens'
    exact run
  · intro run
    exact ⟨leaf, opens, run⟩

/-- `uint32_t`. -/
def uint32 : FixedSize (Fin (2 ^ 32)) where
  size := 4
  encode n := Bytes.ofNat 4 n
  decode bytes := Fin.ofNat (2 ^ 32) (Bytes.toNat bytes)
  size_lt := by decide
  length_encode n := Bytes.length_ofNat 4 n
  decode_encode n := by
    apply Fin.ext
    rw [Bytes.toNat_ofNat_of_lt n.isLt]
    exact Nat.mod_eq_of_lt n.isLt

/-- `BPlusLeafPage<uint32_t, uint32_t>`. -/
def uint32Leaf : LeafTypes (Fin (2 ^ 32)) (Fin (2 ^ 32)) where
  key := uint32
  val := uint32
  mappingSize := 8

theorem leaf_incoherent_after_insert :
    ¬ ∃ leaf, opened uint32Leaf zeroPage 1 0 508 0 = .ok leaf ∧
      CoherentRun uint32Leaf 0 leaf [] [.insert 10 100] := by
  intro ⟨leaf, opens, run⟩
  obtain ⟨leaf', opens', kept, coherent⟩ := @opened_eq _ _ _ uint32Leaf zeroPage 1 0 508 0
  rw [opens] at opens'
  cases opens'
  cases (kept.coherentRun_iff coherent _).mp run with
  | inl none => exact absurd none (by decide)
  | inr removes =>
      obtain ⟨key, same⟩ := removes _ (List.mem_cons_self ..)
      cases same

/-! ## The object that stands for a leaf -/

/-- An object with the entries of a leaf, in its array and in its bytes. -/
structure Represents (leaf : BPlusLeafPage K V) (object : IndexObject K V) : Prop where
  size : object.size = leaf.header.size
  entries : object.entries = leaf.array
  entryBytes : object.entryBytes = leaf.array
  nextPageId : object.nextPageId = leaf.getNextPageId.toNat

omit [LinearOrder K] in
theorem serializedSize_eq (types : LeafTypes K V) (entries : List (K × V)) :
    IndexObject.serializedSize types.sizes entries =
      ENTRIES_OFFSET + entries.length * types.entrySize := rfl

theorem Kept.remove_represents {object : IndexObject K V} (kept : Kept types leaf nextPageId)
    (represents : Represents leaf object) (key : K) :
    leaf.remove types key = .ok (0, leaf) ∧ object.remove key = (false, object) := by
  refine ⟨kept.remove key, ?_⟩
  have size : object.getSize = 0 := represents.size.trans kept.size
  rw [IndexObject.remove, size]
  cases object.entries.isEmpty with
  | true => rfl
  | false => rfl

/-- The insertion into the bytes is the insertion into the lists. -/
theorem Kept.insert_represents {object : IndexObject K V} (kept : Kept types leaf nextPageId)
    (represents : Represents leaf object) (key : K) (val : V) :
    match object.insert types.sizes key val with
    | .ok (inserted, object') => ∃ after, leaf.insert types key val = .ok (inserted, after) ∧
        Represents after object'
    | .error _ => leaf.insert types key val = .error .outside := by
  have size : object.getSize = 0 := represents.size.trans kept.size
  cases Nat.eq_zero_or_pos types.maxSize with
  | inl none =>
      have refused : object.insert types.sizes key val = .ok (false, object) :=
        if_pos (by rw [size]; exact Nat.le_of_eq none)
      rw [refused]
      exact ⟨leaf, kept.insert_refused none key val, represents⟩
  | inr some =>
      have position : object.lowerBound key = leaf.lowerBound key := by
        rw [IndexObject.lowerBound, represents.entries]
        exact (LowerBound.eq_length_takeWhile (kept.partitioned key)).symm
      have array : object.entries.take (object.lowerBound key) ++
          (key, val) :: object.entries.drop (object.lowerBound key) =
            (leaf.insertEntry key val).array := by
        rw [position, represents.entries]
        rfl
      have behind : object.entryBytes.drop (leaf.insertEntry key val).array.length = [] := by
        rw [represents.entryBytes, length_insertEntry]
        exact List.drop_eq_nil_of_le (Nat.le_succ _)
      have cases := kept.insert_cases some key val
      rw [IndexObject.insert, if_neg (by rw [size]; exact Nat.not_le_of_lt some)]
      simp only [array, IndexObject.increaseSize, IndexObject.setSize, IndexObject.serializeToPage,
        serializedSize_eq, behind, List.append_nil]
      rw [← length_insertEntry leaf key val] at cases
      split at cases
      · rename_i room
        obtain ⟨after, inserted, keeps, same⟩ := cases
        rw [if_pos room]
        refine ⟨after, inserted, size.trans keeps.size.symm, same.symm, same.symm, ?_⟩
        rw [keeps.nextPageId, ← kept.nextPageId]
        exact represents.nextPageId
      · rename_i full
        rw [if_neg full]
        exact cases

/-! ## The capacity -/

theorem Kept.insertAll_refused (kept : Kept types leaf nextPageId) (none : types.maxSize = 0)
    (entries : List (K × V)) : insertAll types leaf entries = .ok leaf := by
  induction entries with
  | nil => rfl
  | cons entry rest ih =>
      rw [insertAll, BPlusLeafPage.perform, kept.insert_refused none]
      exact ih

/-- No insertion is refused, and each one writes the entries so far behind the headers. -/
theorem Kept.insertAll_iff (kept : Kept types leaf nextPageId) (some : 0 < types.maxSize)
    (entries : List (K × V))
    (fits : ENTRIES_OFFSET + leaf.array.length * types.entrySize ≤ PAGE_SIZE) :
    (∃ after, insertAll types leaf entries = .ok after) ↔
      ENTRIES_OFFSET + (leaf.array.length + entries.length) * types.entrySize ≤ PAGE_SIZE := by
  induction entries generalizing leaf with
  | nil =>
      constructor
      · intro _
        exact fits
      · intro _
        exact ⟨leaf, rfl⟩
  | cons entry rest ih =>
      have cases := kept.insert_cases some entry.1 entry.2
      rw [insertAll, BPlusLeafPage.perform]
      split at cases
      · rename_i room
        obtain ⟨inserted, result, keeps, array⟩ := cases
        have length : inserted.array.length = leaf.array.length + 1 := by
          rw [array, length_insertEntry]
        rw [result]
        have rest := ih keeps (by rwa [length])
        rw [length, Nat.add_assoc, Nat.add_comm 1] at rest
        exact rest
      · rename_i full
        rw [cases]
        constructor
        · intro ⟨_, inserted⟩
          cases inserted
        · intro room
          have more : (leaf.array.length + 1) * types.entrySize ≤
              (leaf.array.length + (entry :: rest).length) * types.entrySize :=
            Nat.mul_le_mul_right _ (by rw [List.length_cons]; omega)
          omega

/-- A new leaf has room for its headers. -/
theorem Coherent.insertAll_iff (coherent : Coherent types leaf nextPageId [])
    (kept : Kept types leaf nextPageId) (some : 0 < types.maxSize) (entries : List (K × V)) :
    (∃ after, insertAll types leaf entries = .ok after) ↔
      ENTRIES_OFFSET + entries.length * types.entrySize ≤ PAGE_SIZE := by
  have inserted := kept.insertAll_iff some entries (by
    rw [coherent.array, List.length_nil, Nat.zero_mul]
    decide)
  rwa [coherent.array, List.length_nil, Nat.zero_add] at inserted

/-- All that a sequence of insertions writes lies inside the page exactly where none is
    accepted, or the page has room for all of them with their lengths. -/
theorem leaf_capacity_iff (types : LeafTypes K V) (page : PageBytes) (pageId parentId : UInt64)
    (maxSize : Nat) (nextPageId : UInt64) (entries : List (K × V)) :
    (∃ leaf after, opened types page pageId parentId maxSize nextPageId = .ok leaf ∧
        insertAll types leaf entries = .ok after) ↔
      types.maxSize = 0 ∨ ENTRIES_OFFSET + entries.length * types.entrySize ≤ PAGE_SIZE := by
  obtain ⟨leaf, opens, kept, coherent⟩ := opened_eq types page pageId parentId maxSize nextPageId
  cases Nat.eq_zero_or_pos types.maxSize with
  | inl none =>
      constructor
      · intro _
        exact .inl none
      · intro _
        exact ⟨leaf, leaf, opens, kept.insertAll_refused none entries⟩
  | inr some =>
      have inserted := coherent.insertAll_iff kept some entries
      constructor
      · intro ⟨leaf', after, opens', result⟩
        rw [opens] at opens'
        cases opens'
        exact .inr (inserted.mp ⟨after, result⟩)
      · intro condition
        cases condition with
        | inl none => omega
        | inr room =>
            obtain ⟨after, result⟩ := inserted.mpr room
            exact ⟨leaf, after, opens, result⟩

/-- With a size that counts, the capacity would keep the writes inside the page exactly where
    as many entries as it allows fit with their lengths. -/
theorem insertAll_upTo_capacity_iff (coherent : Coherent types leaf nextPageId [])
    (kept : Kept types leaf nextPageId) (entry : K × V) :
    (∀ entries : List (K × V), entries.length ≤ types.maxSize →
        ∃ after, insertAll types leaf entries = .ok after) ↔
      ENTRIES_OFFSET + types.maxSize * types.entrySize ≤ PAGE_SIZE := by
  cases Nat.eq_zero_or_pos types.maxSize with
  | inl none =>
      constructor
      · intro _
        rw [none, Nat.zero_mul]
        decide
      · intro _ entries _
        exact ⟨leaf, kept.insertAll_refused none entries⟩
  | inr some =>
      constructor
      · intro inside
        have full := inside (List.replicate types.maxSize entry) (by rw [List.length_replicate])
        rwa [coherent.insertAll_iff kept some, List.length_replicate] at full
      · intro room entries few
        rw [coherent.insertAll_iff kept some]
        have := Nat.mul_le_mul_right types.entrySize few
        omega

/-- The 170th entry of a leaf that takes 508 is written behind the page. -/
theorem leaf_capacity_exceeded :
    ¬ ∃ leaf after, opened uint32Leaf zeroPage 1 0 508 0 = .ok leaf ∧
      insertAll uint32Leaf leaf (List.replicate 170 (0, 0)) = .ok after := by
  intro ⟨leaf, after, opens, inserted⟩
  obtain ⟨leaf', opens', kept, coherent⟩ := @opened_eq _ _ _ uint32Leaf zeroPage 1 0 508 0
  rw [opens] at opens'
  cases opens'
  have room := (coherent.insertAll_iff kept (by decide) _).mp ⟨after, inserted⟩
  rw [List.length_replicate] at room
  exact absurd room (by decide)

end BPlusLeafPage

end YourSQL
