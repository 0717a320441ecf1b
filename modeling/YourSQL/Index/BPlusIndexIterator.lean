import YourSQL.Buffer.PinnedPage
import YourSQL.Index.BPlusIndexManager
import YourSQL.Lib.Linked

/-! # Scanning a chain of leaves

A `BPlusIndexIterator` stands at a position of a leaf that it has pinned. Where a leaf is
left, and where a scan begins, nothing is asked about the size of the next one: its position
0 is taken whether it has an entry or not. So the scan stops at an empty leaf as at one with
one entry, and everywhere else it does what it should.
-/

namespace YourSQL

structure BPlusIndexIterator where
  /-- The frame of `page_`. -/
  page : Option Nat := none
  leafPageId : Nat := 0
  index : Nat := 0
  isEnd : Bool := true
  deriving Repr, DecidableEq

namespace BPlusIndexIterator

open IndexRun

variable {K V : Type}

def releaseLeaf (it : BPlusIndexIterator) : Call K V BPlusIndexIterator :=
  match it.page with
  | some frame => do
      onPool (BufferManager.release ((← get).pageId frame))
      return { it with page := none }
  | none => return it

def loadLeaf (it : BPlusIndexIterator) (leafPageId : Nat) : Call K V BPlusIndexIterator := do
  if leafPageId = INVALID_PAGE_ID then
    return { it with isEnd := true }
  else
    let it ← it.releaseLeaf
    let frame ← onPool (BufferManager.fetchPage leafPageId)
    return { it with page := some frame, leafPageId := leafPageId }

/-- The constructor. -/
def create (leafPageId index : Nat) : Call K V BPlusIndexIterator :=
  loadLeaf { leafPageId := leafPageId, index := index, isEnd := false } leafPageId

/-- `operator++`. -/
def increment (it : BPlusIndexIterator) : Call K V BPlusIndexIterator :=
  match it.isEnd, it.page with
  | false, some frame => do
      let s ← get
      let leaf := s.objects (s.pageId frame)
      let it := { it with index := it.index + 1 }
      if it.index ≥ leaf.getSize then
        if leaf.nextPageId = INVALID_PAGE_ID then
          releaseLeaf { it with isEnd := true }
        else
          let it ← it.loadLeaf leaf.nextPageId
          return { it with index := 0 }
      else
        return it
  | _, _ => return it

/-- `operator*`. -/
def deref (it : BPlusIndexIterator) : Call K V (K × V) :=
  match it.isEnd, it.page with
  | false, some frame => do
      let s ← get
      Program.lift ((s.objects (s.pageId frame)).entryAt it.index)
  | _, _ => throw "BPlusIndexIterator: dereferencing end iterator"

/-- An iterator from the front of the first leaf on, incremented so many times. -/
def advance (first : Nat) : Nat → Call K V BPlusIndexIterator
  | 0 => create first 0
  | n + 1 => do (← advance first n).increment

end BPlusIndexIterator

namespace IndexRun

variable {K V : Type}

/-- The page id that a leaf names as the next one. -/
def nextOf (s : IndexRun K V) (leaf : Nat) : Option Nat := some (s.objects leaf).nextPageId

/-- The leaves from the first one on, as their next page ids have them: pages of the
    database whose size counts entries of their array. -/
structure LeafChain (s : IndexRun K V) (first : Nat) (leaves : List Nat) : Prop where
  linked : Linked s.nextOf INVALID_PAGE_ID first leaves
  issued : ∀ leaf ∈ leaves, leaf < s.pool.nextPageId
  stored : ∀ leaf ∈ leaves, (s.objects leaf).getSize ≤ (s.objects leaf).entries.length

/-- The positions of the entries of a chain. -/
def positions (s : IndexRun K V) (leaves : List Nat) : List (Nat × Nat) :=
  leaves.flatMap fun leaf => (List.range (s.objects leaf).getSize).map (leaf, ·)

/-- However often it is incremented, an iterator stands at the position that is due, reads
    the entry there and has the leaf pinned once, or is at the end and has nothing. -/
def Scans (s : IndexRun K V) (first : Nat) (leaves : List Nat) : Prop :=
  ∀ n, ∃ it t, (BPlusIndexIterator.advance first n).run s = (.ok it, t) ∧ t.objects = s.objects ∧
    match (s.positions leaves)[n]? with
    | some (leaf, index) => it.isEnd = false ∧ it.leafPageId = leaf ∧ it.index = index ∧
        (∃ entry, (s.objects leaf).entries[index]? = some entry ∧
          (it.deref.run t).1 = .ok entry) ∧
        t.pool.pins = Function.update s.pool.pins leaf (s.pool.pins leaf + 1)
    | none => it.isEnd = true ∧ t.pool.pins = s.pool.pins

/-- Where the scan stops: an empty leaf is visited too. -/
def stops (s : IndexRun K V) (leaves : List Nat) : List (Nat × Nat) :=
  leaves.flatMap fun leaf => (List.range (max 1 (s.objects leaf).getSize)).map (leaf, ·)

/-- An iterator on its way, with the stops that are left: the first one is where it stands. -/
inductive Standing (s : IndexRun K V) (leaves : List Nat) (held : Nat → Nat) (room : Prop) :
    BPlusIndexIterator → IndexRun K V → List (Nat × Nat) → Prop where
  | inside {t : IndexRun K V} {leaf index frame : Nat} {rest : List Nat}
      (objects : t.objects = s.objects)
      (pinned : t.pool.Pinned held room s.pool.nextPageId leaf frame)
      (linked : Linked s.nextOf INVALID_PAGE_ID (s.objects leaf).nextPageId rest)
      (within : ∀ leaf ∈ rest, leaf ∈ leaves)
      (reached : index < max 1 (s.objects leaf).getSize) :
      Standing s leaves held room
        { page := some frame, leafPageId := leaf, index := index, isEnd := false } t
        (((List.range (max 1 (s.objects leaf).getSize)).drop index).map (leaf, ·) ++ s.stops rest)
  | ended {t : IndexRun K V} {it : BPlusIndexIterator} (objects : t.objects = s.objects)
      (shared : t.pool.Shared held room s.pool.nextPageId) (page : it.page = none)
      (isEnd : it.isEnd = true) : Standing s leaves held room it t []

variable {s t : IndexRun K V} {first : Nat} {leaves : List Nat} {held : Nat → Nat} {room : Prop}
  {it it' : BPlusIndexIterator} {remaining : List (Nat × Nat)}

/-! ## The steps of an iterator -/

theorem run_releaseLeaf (it : BPlusIndexIterator) {issued leaf frame : Nat}
    (page : it.page = some frame) (pinned : t.pool.Pinned held room issued leaf frame) :
    ∃ t', it.releaseLeaf.run t = (.ok { it with page := none }, t') ∧ t'.objects = t.objects ∧
      t'.pool.Shared held room issued := by
  obtain ⟨pool, released, shared⟩ := pinned.run_release
  refine ⟨{ t with pool := pool }, ?_, rfl, shared⟩
  have named : t.pageId frame = leaf := pinned.named
  have given : (onPool (K := K) (V := V) (BufferManager.release leaf)).run t =
      (.ok ⟨⟩, { t with pool := pool }) := by
    rw [onPool_run, released]
  simp only [BPlusIndexIterator.releaseLeaf, page, Program.run_get_bind, named]
  rw [Program.run_bind_of_ok given]
  rfl

/-- A leaf is loaded where there is a frame for it. -/
theorem wp_loadLeaf (it : BPlusIndexIterator) {t' : IndexRun K V} {issued leaf : Nat}
    (released : it.releaseLeaf.run t = (.ok it', t'))
    (shared : t'.pool.Shared held room issued) (inner : leaf ≠ INVALID_PAGE_ID)
    (small : leaf < issued) :
    (it.loadLeaf leaf).wp
      (fun it'' t'' => ∃ frame, it'' = { it' with page := some frame, leafPageId := leaf } ∧
        t''.objects = t'.objects ∧ t''.pool.Pinned held room issued leaf frame)
      (fun _ _ => ¬ (0 < held leaf ∨ room)) t := by
  rw [BPlusIndexIterator.loadLeaf, if_neg inner, Program.wp_bind, Program.wp_of_ok released,
    Program.wp_bind, wp_onPool]
  refine (shared.wp_fetchPage small).mono (fun frame pool pinned => ?_) (fun _ _ failed => failed)
  exact ⟨frame, rfl, rfl, pinned⟩

theorem linked_cons {leaf : Nat} {rest : List Nat}
    (linked : Linked s.nextOf INVALID_PAGE_ID first (leaf :: rest)) :
    first = leaf ∧ leaf ≠ INVALID_PAGE_ID ∧
      Linked s.nextOf INVALID_PAGE_ID (s.objects leaf).nextPageId rest := by
  obtain ⟨rfl, inner, second, named, linked⟩ := linked
  cases named
  exact ⟨rfl, inner, linked⟩

theorem stops_cons (s : IndexRun K V) (leaf : Nat) (rest : List Nat) :
    s.stops (leaf :: rest) =
      ((List.range (max 1 (s.objects leaf).getSize)).drop 0).map (leaf, ·) ++ s.stops rest := rfl

/-- The chain is entered at its first leaf. -/
theorem wp_create (inv : s.pool.Inv held) (chain : s.LeafChain first leaves) :
    (BPlusIndexIterator.create first 0).wp
      (fun it t => Standing s leaves held (s.pool.freePages ≠ []) it t (s.stops leaves))
      (fun _ _ => ∃ leaf ∈ leaves, ¬ (0 < held leaf ∨ s.pool.freePages ≠ [])) s := by
  cases leaves with
  | nil =>
      have none : first = INVALID_PAGE_ID := chain.linked
      rw [BPlusIndexIterator.create, BPlusIndexIterator.loadLeaf, if_pos none]
      exact .ended rfl inv.shared rfl rfl
  | cons leaf rest =>
      obtain ⟨rfl, inner, linked⟩ := linked_cons chain.linked
      have small := chain.issued first (List.mem_cons_self ..)
      refine (wp_loadLeaf { leafPageId := first, index := 0, isEnd := false }
        rfl inv.shared inner small).mono ?_ ?_
      · intro it t entered
        obtain ⟨frame, rfl, objects, pinned⟩ := entered
        rw [stops_cons]
        exact .inside objects pinned linked (fun _ => List.mem_cons_of_mem _)
          (Nat.lt_of_lt_of_le Nat.one_pos (Nat.le_max_left ..))
      · intro _ _ unserved
        exact ⟨first, List.mem_cons_self .., unserved⟩

/-- An increment goes to the next stop. -/
theorem Standing.wp_increment (chain : s.LeafChain first leaves)
    (standing : Standing s leaves held room it t remaining) :
    it.increment.wp (fun it' t' => Standing s leaves held room it' t' remaining.tail)
      (fun _ _ => ∃ leaf ∈ leaves, ¬ (0 < held leaf ∨ room)) t := by
  cases standing with
  | ended objects shared page isEnd =>
      have still : (it.increment : Call K V BPlusIndexIterator) = pure it := by
        simp only [BPlusIndexIterator.increment, isEnd]
      rw [still]
      exact .ended objects shared page isEnd
  | @inside _ leaf index frame rest objects pinned linked within reached =>
      have named : t.pageId frame = leaf := pinned.named
      have tail : (((List.range (max 1 (s.objects leaf).getSize)).drop index).map (leaf, ·) ++
          s.stops rest).tail =
          ((List.range (max 1 (s.objects leaf).getSize)).drop (index + 1)).map (leaf, ·) ++
            s.stops rest := by
        rw [List.drop_eq_getElem_cons (by rwa [List.length_range])]
        rfl
      rw [tail]
      simp only [BPlusIndexIterator.increment, Program.wp_bind, Program.wp_get, named, objects]
      split
      · rename_i last
        have passed : (List.range (max 1 (s.objects leaf).getSize)).drop (index + 1) = [] :=
          List.drop_eq_nil_of_le (by rw [List.length_range]; omega)
        rw [passed, List.map_nil, List.nil_append]
        split
        · rename_i none
          have finished : rest = [] := by
            cases rest with
            | nil => rfl
            | cons next rest =>
                obtain ⟨same, inner, _⟩ := linked_cons linked
                exact absurd (same.symm.trans none) inner
          obtain ⟨t', released, still, shared⟩ := run_releaseLeaf (t := t)
            { page := some frame, leafPageId := leaf, index := index + 1, isEnd := true } rfl pinned
          rw [Program.wp_of_ok released, finished]
          exact .ended (still.trans objects) shared rfl rfl
        · rename_i more
          cases rest with
          | nil => exact absurd linked more
          | cons next rest =>
              obtain ⟨same, inner, linked⟩ := linked_cons linked
              have member := within next (List.mem_cons_self ..)
              obtain ⟨t', released, still, shared⟩ := run_releaseLeaf (t := t)
                { page := some frame, leafPageId := leaf, index := index + 1, isEnd := false }
                rfl pinned
              rw [Program.wp_bind, same]
              refine (wp_loadLeaf _ released shared inner (chain.issued next member)).mono ?_ ?_
              · intro it t entered
                obtain ⟨frame, rfl, kept, pinned⟩ := entered
                rw [stops_cons]
                exact .inside (kept.trans (still.trans objects)) pinned linked
                  (fun later behind => within later (List.mem_cons_of_mem _ behind)) (by omega)
              · intro _ _ unserved
                exact ⟨next, member, unserved⟩
      · rename_i inner
        exact .inside objects pinned linked within (by omega)

/-! ## The run of an iterator -/

theorem wp_advance (inv : s.pool.Inv held) (chain : s.LeafChain first leaves) (n : Nat) :
    (BPlusIndexIterator.advance first n).wp
      (fun it t => Standing s leaves held (s.pool.freePages ≠ []) it t ((s.stops leaves).drop n))
      (fun _ _ => ∃ leaf ∈ leaves, ¬ (0 < held leaf ∨ s.pool.freePages ≠ [])) s := by
  induction n with
  | zero => exact wp_create inv chain
  | succ n ih =>
      rw [BPlusIndexIterator.advance, Program.wp_bind]
      refine ih.mono (fun it t standing => ?_) (fun _ _ unserved => unserved)
      have next := standing.wp_increment chain
      rwa [List.tail_drop] at next

/-- What an iterator shows of the first stop that is left. -/
theorem Standing.shows (inv : s.pool.Inv held)
    (standing : Standing s leaves held room it t remaining) :
    t.objects = s.objects ∧
      match remaining.head? with
      | some (leaf, index) => it.isEnd = false ∧ it.leafPageId = leaf ∧ it.index = index ∧
          (it.deref.run t).1 = (s.objects leaf).entryAt index ∧
          t.pool.pins = Function.update s.pool.pins leaf (s.pool.pins leaf + 1) ∧
          (0 < held leaf ∨ room)
      | none => it.isEnd = true ∧ t.pool.pins = s.pool.pins := by
  cases standing with
  | ended objects shared page isEnd =>
      refine ⟨objects, isEnd, ?_⟩
      rw [shared.inv.pins_eq, inv.pins_eq]
  | @inside _ leaf index frame rest objects pinned linked within reached =>
      refine ⟨objects, ?_⟩
      rw [List.drop_eq_getElem_cons (by rwa [List.length_range]), List.getElem_range]
      refine ⟨rfl, rfl, rfl, ?_, ?_, ?_⟩
      · have named : t.pageId frame = leaf := pinned.named
        simp only [BPlusIndexIterator.deref, Program.run_get_bind, Program.run_lift, named, objects]
      · rw [pinned.inv.pins_eq, inv.pins_eq]
        funext id
        by_cases same : id = leaf
        · rw [same, Function.update_self, Function.update_self]
          rfl
        · rw [Function.update_of_ne same, Function.update_of_ne same]
      · cases pinned.served with
        | inl alone => exact .inr alone.2
        | inr others => exact .inl others.1

theorem mem_positions {leaf index : Nat} (member : (leaf, index) ∈ s.positions leaves) :
    leaf ∈ leaves ∧ index < (s.objects leaf).getSize := by
  simp only [positions, List.mem_flatMap, List.mem_map, List.mem_range, Prod.mk.injEq] at member
  obtain ⟨_, inChain, _, inside, rfl, rfl⟩ := member
  exact ⟨inChain, inside⟩

theorem mem_stops {leaf : Nat} (member : leaf ∈ leaves) : (leaf, 0) ∈ s.stops leaves := by
  simp only [stops, List.mem_flatMap, List.mem_map, List.mem_range, Prod.mk.injEq]
  exact ⟨leaf, member, 0, by omega, rfl, rfl⟩

/-- The stops are the positions where no leaf is empty. -/
theorem stops_eq_positions_iff :
    s.stops leaves = s.positions leaves ↔ ∀ leaf ∈ leaves, 0 < (s.objects leaf).getSize := by
  constructor
  · intro same leaf member
    have stop := mem_stops (s := s) member
    rw [same] at stop
    exact (mem_positions stop).2
  · intro occupied
    unfold stops positions
    apply List.flatMap_congr
    intro leaf member
    rw [Nat.max_eq_right (occupied leaf member)]

namespace Scans

/-- Where the scan is right, its stops are the positions of the entries. -/
theorem stops_eq (scans : s.Scans first leaves) (inv : s.pool.Inv held)
    (chain : s.LeafChain first leaves) : s.stops leaves = s.positions leaves := by
  apply List.ext_getElem?
  intro n
  obtain ⟨it, t, ran, _, due⟩ := scans n
  have standing := (Program.wp_of_ok ran).mp (wp_advance inv chain n)
  have shown := (standing.shows inv).2
  rw [List.head?_drop] at shown
  cases stop : (s.stops leaves)[n]? with
  | some position =>
      rw [stop] at shown
      cases expected : (s.positions leaves)[n]? with
      | some position' =>
          rw [expected] at due
          exact congrArg some (Prod.ext (shown.2.1.symm.trans due.2.1)
            (shown.2.2.1.symm.trans due.2.2.1))
      | none =>
          rw [expected] at due
          exact absurd (shown.1.symm.trans due.1) Bool.false_ne_true
  | none =>
      rw [stop] at shown
      cases expected : (s.positions leaves)[n]? with
      | some position =>
          rw [expected] at due
          exact absurd (due.1.symm.trans shown.1) Bool.false_ne_true
      | none => rfl

/-- There is a frame for each leaf that is reached, and all are. -/
theorem served (scans : s.Scans first leaves) (inv : s.pool.Inv held)
    (chain : s.LeafChain first leaves) {leaf : Nat} (member : leaf ∈ leaves) :
    0 < held leaf ∨ s.pool.freePages ≠ [] := by
  obtain ⟨n, stop⟩ := List.mem_iff_getElem?.mp (mem_stops (s := s) member)
  obtain ⟨it, t, ran, _, _⟩ := scans n
  have standing := (Program.wp_of_ok ran).mp (wp_advance inv chain n)
  have shown := (standing.shows inv).2
  rw [List.head?_drop, stop] at shown
  exact shown.2.2.2.2.2

end Scans

/-- A pool of two frames in which nobody has a page, and one leaf on page 1. -/
def oneLeaf (entries : List (Nat × Nat)) : IndexRun Nat Nat where
  pool := .create (fun _ => zeroPage) 2 (fun _ => zeroPage) 2
  objects := Function.update (fun _ => {}) 1
    { type := .leaf, size := entries.length, pageId := 1, entries := entries }

theorem oneLeaf_chain (entries : List (Nat × Nat)) : (oneLeaf entries).LeafChain 1 [1] where
  linked := ⟨rfl, by decide, INVALID_PAGE_ID, rfl, rfl⟩
  issued := by simp [oneLeaf, BufferManager.create]
  stored := by simp [oneLeaf, IndexObject.getSize]

end IndexRun

end YourSQL
