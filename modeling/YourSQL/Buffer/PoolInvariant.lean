import YourSQL.Buffer.BufferManager
import YourSQL.Lib.Transition

/-! # What the structures of the pool say together

The free list, the map from page ids, the replacement policy and the pin counts
describe the same frames. A frame is free or holds one page, and it is pinned as often
as its page is held.
-/

namespace YourSQL

namespace BufferManager

/-- The structures agree, where a page with id `id` is held `held id` times. -/
structure Inv (m : BufferManager) (held : Nat → Nat) : Prop where
  lru : m.lruManager.Inv
  listed : ∀ entry ∈ m.lruManager.list, entry.2 ∈ m.freePages
  freeOnce : m.freePages.Nodup
  freeFrame : ∀ frame ∈ m.freePages,
    frame < m.maxPages ∧ m.lruManager.pinCount frame = 0 ∧ ∀ id, m.bufferPages id ≠ some frame
  usedFrame : ∀ frame < m.maxPages, frame ∉ m.freePages → ∃ id, m.bufferPages id = some frame
  mapped : ∀ id frame, m.bufferPages id = some frame →
    frame < m.maxPages ∧ m.lruManager.pinCount frame = held id ∧ 0 < held id
  unmapped : ∀ id, m.bufferPages id = none → held id = 0
  unaliased : ∀ id id' frame, m.bufferPages id = some frame → m.bufferPages id' = some frame →
    id = id'
  known : ∀ id, m.bufferPages id ≠ none → id < m.nextPageId

variable {m m' : BufferManager} {held : Nat → Nat} {id frame : Nat}

/-- The invariant says nothing of what is in the frames and on disk. -/
theorem Inv.congr (inv : m.Inv held) (lru : m'.lruManager = m.lruManager)
    (maxPages : m'.maxPages = m.maxPages) (freePages : m'.freePages = m.freePages)
    (bufferPages : m'.bufferPages = m.bufferPages) (nextPageId : m'.nextPageId = m.nextPageId) :
    m'.Inv held := by
  cases m'
  cases m
  subst lru maxPages freePages bufferPages nextPageId
  exact ⟨inv.lru, inv.listed, inv.freeOnce, inv.freeFrame, inv.usedFrame, inv.mapped,
    inv.unmapped, inv.unaliased, inv.known⟩

theorem inv_create (disk : Nat → PageBytes) (maxPages : Nat) (frames : Nat → PageBytes)
    (nextPageId : Nat) : (create disk maxPages frames nextPageId).Inv fun _ => 0 where
  lru := LRUManager.inv_empty
  listed := by simp [create]
  freeOnce := List.nodup_range
  freeFrame frame free := ⟨List.mem_range.mp free, rfl, by simp [create]⟩
  usedFrame frame inPool used := absurd (List.mem_range.mpr inPool) used
  mapped := by simp [create]
  unmapped _ _ := rfl
  unaliased := by simp [create]
  known := by simp [create]

/-- A mapped frame is not free. -/
theorem Inv.notFree (inv : m.Inv held) (found : m.bufferPages id = some frame) :
    frame ∉ m.freePages := fun free => (inv.freeFrame frame free).2.2 id found

/-- A frame that is not free is not listed. -/
theorem Inv.notListed (inv : m.Inv held) (used : frame ∉ m.freePages) :
    m.lruManager.map frame = none := by
  by_contra listed
  obtain ⟨node, found⟩ := Option.ne_none_iff_exists'.mp listed
  exact used (inv.listed _ ((inv.lru.agree frame node).mp found))

theorem Inv.mem_of_listed_pin (inv : m.Inv held) {entry : Nat × Nat}
    (member : entry ∈ (m.lruManager.pin frame).list) :
    entry ∈ m.lruManager.list ∧ entry.2 ≠ frame := by
  have agree := ((inv.lru.pin frame).agree entry.2 entry.1).mpr member
  rw [LRUManager.map_pin] at agree
  by_cases same : entry.2 = frame
  · rw [same, Function.update_self] at agree
    cases agree
  · rw [Function.update_of_ne same] at agree
    exact ⟨(inv.lru.agree _ _).mp agree, same⟩

/-! ## Where the free frames come from and go -/

/-- A free frame becomes the frame of a page. -/
def occupy (m : BufferManager) (frame id nextPageId : Nat) : BufferManager :=
  { m with
    lruManager := m.lruManager.pin frame
    freePages := m.freePages.dropLast
    bufferPages := Function.update m.bufferPages id (some frame)
    nextPageId := nextPageId }

theorem Inv.occupy (inv : m.Inv held) (last : m.freePages.getLast? = some frame)
    (absent : m.bufferPages id = none) {nextPageId : Nat} (later : m.nextPageId ≤ nextPageId)
    (small : id < nextPageId) :
    (m.occupy frame id nextPageId).Inv (Function.update held id (held id + 1)) := by
  obtain ⟨rest, split⟩ := List.getLast?_eq_some_iff.mp last
  have drop : m.freePages.dropLast = rest := by rw [split, List.dropLast_concat]
  have once := inv.freeOnce
  rw [split, List.nodup_append] at once
  have gone : frame ∉ rest := fun member => once.2.2 frame member frame (List.mem_singleton_self _) rfl
  have wasFree : frame ∈ m.freePages := by simp [split]
  have inRest : ∀ other, other ∈ rest ↔ other ∈ m.freePages ∧ other ≠ frame := by
    intro other
    rw [split, List.mem_append, List.mem_singleton]
    constructor
    · intro member
      exact ⟨.inl member, fun same => gone (same ▸ member)⟩
    · rintro ⟨member | same, ne⟩
      · exact member
      · exact absurd same ne
  refine
    { lru := inv.lru.pin frame
      listed := ?_
      freeOnce := ?_
      freeFrame := ?_
      usedFrame := ?_
      mapped := ?_
      unmapped := ?_
      unaliased := ?_
      known := ?_ } <;> simp only [BufferManager.occupy, drop, LRUManager.pinCount_pin]
  · intro entry member
    obtain ⟨old, ne⟩ := inv.mem_of_listed_pin member
    exact (inRest _).mpr ⟨inv.listed entry old, ne⟩
  · exact once.1
  · intro other free
    obtain ⟨old, ne⟩ := (inRest other).mp free
    obtain ⟨inPool, unpinned, unused⟩ := inv.freeFrame other old
    refine ⟨inPool, by rwa [Function.update_of_ne ne], fun id' => ?_⟩
    by_cases same : id' = id
    · rw [same, Function.update_self]
      exact fun eq => ne (Option.some.inj eq).symm
    · rw [Function.update_of_ne same]
      exact unused id'
  · intro other inPool used
    by_cases same : other = frame
    · exact ⟨id, by rw [same, Function.update_self]⟩
    · obtain ⟨id', found⟩ := inv.usedFrame other inPool fun free =>
        used ((inRest other).mpr ⟨free, same⟩)
      refine ⟨id', ?_⟩
      rwa [Function.update_of_ne]
      rintro rfl
      rw [absent] at found
      cases found
  · intro id' other found
    by_cases same : id' = id
    · rw [same, Function.update_self] at found
      obtain rfl := Option.some.inj found
      obtain ⟨inPool, unpinned, -⟩ := inv.freeFrame frame wasFree
      rw [same, Function.update_self, Function.update_self, unpinned, inv.unmapped id absent]
      exact ⟨inPool, rfl, by omega⟩
    · rw [Function.update_of_ne same] at found
      have ne : other ≠ frame := by
        rintro rfl
        exact inv.notFree found wasFree
      rw [Function.update_of_ne same, Function.update_of_ne ne]
      exact inv.mapped id' other found
  · intro id' none
    have ne : id' ≠ id := by
      rintro rfl
      rw [Function.update_self] at none
      cases none
    rw [Function.update_of_ne ne] at none ⊢
    exact inv.unmapped id' none
  · intro id' id'' other found found'
    by_cases same : id' = id <;> by_cases same' : id'' = id
    · rw [same, same']
    · rw [same, Function.update_self] at found
      rw [Function.update_of_ne same'] at found'
      obtain rfl := Option.some.inj found
      exact absurd wasFree (inv.notFree found')
    · rw [same', Function.update_self] at found'
      rw [Function.update_of_ne same] at found
      obtain rfl := Option.some.inj found'
      exact absurd wasFree (inv.notFree found)
    · rw [Function.update_of_ne same] at found
      rw [Function.update_of_ne same'] at found'
      exact inv.unaliased id' id'' other found found'
  · intro id' present
    by_cases same : id' = id
    · omega
    · rw [Function.update_of_ne same] at present
      exact Nat.lt_of_lt_of_le (inv.known id' present) later

/-- A page that is in the pool already is pinned once more. -/
theorem Inv.pin (inv : m.Inv held) (found : m.bufferPages id = some frame) :
    (m.pin frame).Inv (Function.update held id (held id + 1)) := by
  have notFree := inv.notFree found
  refine
    { lru := inv.lru.pin frame
      listed := fun entry member => inv.listed entry (inv.mem_of_listed_pin member).1
      freeOnce := inv.freeOnce
      freeFrame := ?_
      usedFrame := inv.usedFrame
      mapped := ?_
      unmapped := ?_
      unaliased := inv.unaliased
      known := inv.known } <;> simp only [BufferManager.pin, LRUManager.pinCount_pin]
  · intro other free
    have ne : other ≠ frame := by
      rintro rfl
      exact notFree free
    rw [Function.update_of_ne ne]
    exact inv.freeFrame other free
  · intro id' other found'
    by_cases same : id' = id
    · rw [same, found] at found'
      obtain rfl := Option.some.inj found'
      obtain ⟨inPool, pins, some⟩ := inv.mapped id frame found
      rw [same, Function.update_self, Function.update_self, pins]
      exact ⟨inPool, rfl, by omega⟩
    · have ne : other ≠ frame := by
        rintro rfl
        exact same (inv.unaliased _ _ _ found' found)
      rw [Function.update_of_ne same, Function.update_of_ne ne]
      exact inv.mapped id' other found'
  · intro id' none
    have ne : id' ≠ id := by
      rintro rfl
      rw [found] at none
      cases none
    rw [Function.update_of_ne ne]
    exact inv.unmapped id' none

/-- What `Release` does to the structures: the last one to let go frees the frame. -/
def vacate (m : BufferManager) (frame id : Nat) : BufferManager :=
  let m := { m with lruManager := m.lruManager.unPin frame }
  if m.lruManager.pinCount frame = 0 then
    { m with
      freePages := frame :: m.freePages
      bufferPages := Function.update m.bufferPages id none }
  else
    m

theorem Inv.vacate (inv : m.Inv held) (found : m.bufferPages id = some frame) :
    (m.vacate frame id).Inv (Function.update held id (held id - 1)) := by
  have notFree := inv.notFree found
  have notListed := inv.notListed notFree
  have lru := inv.lru.unPin notListed
  obtain ⟨inPool, pins, some⟩ := inv.mapped id frame found
  have only : ∀ id', m.bufferPages id' = Option.some frame → id' = id := fun id' found' =>
    inv.unaliased _ _ _ found' found
  have others : ∀ id' other, id' ≠ id → m.bufferPages id' = Option.some other →
      other < m.maxPages ∧
        Function.update m.lruManager.pinCount frame (m.lruManager.pinCount frame - 1) other =
          Function.update held id (held id - 1) id' ∧
        0 < Function.update held id (held id - 1) id' := by
    intro id' other ne found'
    have ne' : other ≠ frame := by
      rintro rfl
      exact ne (only id' found')
    rw [Function.update_of_ne ne, Function.update_of_ne ne']
    exact inv.mapped id' other found'
  unfold BufferManager.vacate
  simp only [LRUManager.pinCount_unPin, Function.update_self]
  by_cases last : m.lruManager.pinCount frame - 1 = 0
  · rw [if_pos last]
    refine
      { lru := lru
        listed := ?_
        freeOnce := List.nodup_cons.mpr ⟨notFree, inv.freeOnce⟩
        freeFrame := ?_
        usedFrame := ?_
        mapped := ?_
        unmapped := ?_
        unaliased := ?_
        known := ?_ } <;> simp only [LRUManager.pinCount_unPin]
    · intro entry member
      have agree := (lru.agree entry.2 entry.1).mpr member
      rw [LRUManager.map_unPin, if_pos (by omega)] at agree
      by_cases same : entry.2 = frame
      · rw [same]
        exact List.mem_cons_self ..
      · rw [Function.update_of_ne same] at agree
        exact List.mem_cons_of_mem _ (inv.listed entry ((inv.lru.agree _ _).mp agree))
    · intro other free
      rcases List.mem_cons.mp free with rfl | old
      · refine ⟨inPool, by rw [Function.update_self, last], fun id' => ?_⟩
        by_cases same : id' = id
        · simp [same]
        · rw [Function.update_of_ne same]
          exact fun found' => same (only id' found')
      · have ne : other ≠ frame := by
          rintro rfl
          exact notFree old
        obtain ⟨inPool', unpinned, unused⟩ := inv.freeFrame other old
        refine ⟨inPool', by rwa [Function.update_of_ne ne], fun id' => ?_⟩
        by_cases same : id' = id
        · simp [same]
        · rw [Function.update_of_ne same]
          exact unused id'
    · intro other inPool' used
      obtain ⟨ne, old⟩ := not_or.mp (mt List.mem_cons.mpr used)
      obtain ⟨id', found'⟩ := inv.usedFrame other inPool' old
      refine ⟨id', ?_⟩
      rwa [Function.update_of_ne]
      rintro rfl
      exact ne (Option.some.inj (found'.symm.trans found))
    · intro id' other found'
      have ne : id' ≠ id := by
        rintro rfl
        rw [Function.update_self] at found'
        cases found'
      rw [Function.update_of_ne ne] at found'
      exact others id' other ne found'
    · intro id' none
      by_cases same : id' = id
      · rw [same, Function.update_self]
        omega
      · rw [Function.update_of_ne same] at none ⊢
        exact inv.unmapped id' none
    · intro id' id'' other found' found''
      have ne : id' ≠ id := by
        rintro rfl
        rw [Function.update_self] at found'
        cases found'
      have ne' : id'' ≠ id := by
        rintro rfl
        rw [Function.update_self] at found''
        cases found''
      rw [Function.update_of_ne ne] at found'
      rw [Function.update_of_ne ne'] at found''
      exact inv.unaliased id' id'' other found' found''
    · intro id' present
      have ne : id' ≠ id := by
        rintro rfl
        exact present (Function.update_self ..)
      rw [Function.update_of_ne ne] at present
      exact inv.known id' present
  · rw [if_neg last]
    refine
      { lru := lru
        listed := ?_
        freeOnce := inv.freeOnce
        freeFrame := ?_
        usedFrame := inv.usedFrame
        mapped := ?_
        unmapped := ?_
        unaliased := inv.unaliased
        known := inv.known } <;> simp only [LRUManager.pinCount_unPin]
    · intro entry member
      have agree := (lru.agree entry.2 entry.1).mpr member
      rw [LRUManager.map_unPin, if_neg (by omega)] at agree
      exact inv.listed entry ((inv.lru.agree _ _).mp agree)
    · intro other free
      have ne : other ≠ frame := by
        rintro rfl
        exact notFree free
      rw [Function.update_of_ne ne]
      exact inv.freeFrame other free
    · intro id' other found'
      by_cases same : id' = id
      · rw [same, found] at found'
        obtain rfl := Option.some.inj found'
        rw [same, Function.update_self, Function.update_self, pins]
        exact ⟨inPool, by omega, by omega⟩
      · exact others id' other same found'
    · intro id' none
      have ne : id' ≠ id := by
        rintro rfl
        rw [found] at none
        cases none
      rw [Function.update_of_ne ne]
      exact inv.unmapped id' none

/-- Touching a page moves its frame within the list, if it is there at all. -/
theorem Inv.touch (inv : m.Inv held) (frame : Nat) :
    ({ m with lruManager := m.lruManager.touch frame } : BufferManager).Inv held := by
  refine
    { lru := inv.lru.touch frame
      listed := ?_
      freeOnce := inv.freeOnce
      freeFrame := ?_
      usedFrame := inv.usedFrame
      mapped := ?_
      unmapped := inv.unmapped
      unaliased := inv.unaliased
      known := inv.known } <;> simp only [LRUManager.pinCount_touch]
  · intro entry member
    have agree := ((inv.lru.touch frame).agree entry.2 entry.1).mpr member
    have listed := LRUManager.map_touch_isSome m.lruManager frame entry.2
    rw [agree] at listed
    obtain ⟨node, found⟩ := Option.isSome_iff_exists.mp listed.symm
    exact inv.listed (node, entry.2) ((inv.lru.agree entry.2 node).mp found)
  · exact inv.freeFrame
  · exact inv.mapped

/-- With no free frame there is none to evict. -/
theorem Inv.evict_of_full (inv : m.Inv held) (full : m.freePages = []) :
    m.lruManager.evict = .error "LRU manager is empty" := by
  have empty : m.lruManager.list = [] := by
    rw [List.eq_nil_iff_forall_not_mem]
    intro entry member
    have free := inv.listed entry member
    rw [full] at free
    cases free
  simp [LRUManager.evict, empty]

/-- No frame is free exactly when all are pinned. -/
theorem Inv.full_iff (inv : m.Inv held) :
    m.freePages = [] ↔ ∀ frame < m.maxPages, 0 < m.lruManager.pinCount frame := by
  constructor
  · intro full frame inPool
    obtain ⟨id, found⟩ := inv.usedFrame frame inPool (by simp [full])
    obtain ⟨-, pins, some⟩ := inv.mapped id frame found
    omega
  · intro pinned
    rw [List.eq_nil_iff_forall_not_mem]
    intro frame free
    obtain ⟨inPool, unpinned, -⟩ := inv.freeFrame frame free
    have := pinned frame inPool
    omega

end BufferManager

end YourSQL
