import Mathlib.Data.List.Nodup
import Mathlib.Logic.Function.Basic

/-! # The replacement policy

`LRUManager` counts the pins of each frame and keeps the frames whose count came back
to zero in a list, with an iterator into the list for each of them. A list node has an
identity of its own here, so that an iterator is the node it points to.
-/

namespace YourSQL

structure LRUManager where
  pinCount : Nat → Int := fun _ => 0
  /-- Nodes with their frames, the front first. -/
  list : List (Nat × Nat) := []
  map : Nat → Option Nat := fun _ => none
  nextNode : Nat := 0

namespace LRUManager

/-- `list_.erase` of an iterator. -/
def eraseNode (lru : LRUManager) (node : Nat) : List (Nat × Nat) :=
  lru.list.filter fun entry => entry.1 != node

def pin (lru : LRUManager) (frame : Nat) : LRUManager :=
  let pinCount := Function.update lru.pinCount frame (lru.pinCount frame + 1)
  match lru.map frame with
  | none => { lru with pinCount := pinCount }
  | some node =>
      { lru with
        pinCount := pinCount
        list := lru.eraseNode node
        map := Function.update lru.map frame none }

/-- `push_front`, with the iterator kept in the map. -/
def pushFront (lru : LRUManager) (frame : Nat) : LRUManager :=
  { lru with
    list := (lru.nextNode, frame) :: lru.list
    map := Function.update lru.map frame (some lru.nextNode)
    nextNode := lru.nextNode + 1 }

def unPin (lru : LRUManager) (frame : Nat) : LRUManager :=
  let lru := { lru with
    pinCount := Function.update lru.pinCount frame (lru.pinCount frame - 1) }
  if lru.pinCount frame = 0 then lru.pushFront frame else lru

def touch (lru : LRUManager) (frame : Nat) : LRUManager :=
  match lru.map frame with
  | none => lru
  | some node => { lru with list := lru.eraseNode node }.pushFront frame

def evict (lru : LRUManager) : Except String Nat :=
  match lru.list.getLast? with
  | none => .error "LRU manager is empty"
  | some entry => .ok entry.2

/-- List and map agree. -/
structure Inv (lru : LRUManager) : Prop where
  nodes : (lru.list.map Prod.fst).Nodup
  frames : (lru.list.map Prod.snd).Nodup
  agree : ∀ frame node, lru.map frame = some node ↔ (node, frame) ∈ lru.list
  fresh : ∀ entry ∈ lru.list, entry.1 < lru.nextNode

variable {lru : LRUManager} {frame : Nat}

theorem inv_empty : Inv {} where
  nodes := List.nodup_nil
  frames := List.nodup_nil
  agree := by simp
  fresh := by simp

theorem Inv.congr (inv : Inv lru) (pinCount : Nat → Int) :
    Inv { lru with pinCount := pinCount } := ⟨inv.nodes, inv.frames, inv.agree, inv.fresh⟩

/-- Taking out a frame leaves the others where they are. -/
theorem Inv.erase (inv : Inv lru) {node : Nat} (found : lru.map frame = some node) :
    Inv { lru with list := lru.eraseNode node, map := Function.update lru.map frame none } := by
  have inList := (inv.agree frame node).mp found
  have sub : (lru.eraseNode node).Sublist lru.list := List.filter_sublist
  refine
    { nodes := inv.nodes.sublist (sub.map _)
      frames := inv.frames.sublist (sub.map _)
      agree := ?_
      fresh := fun entry member => inv.fresh entry (sub.subset member) }
  intro other node'
  simp only [eraseNode, List.mem_filter, bne_iff_ne, Function.update_apply]
  split
  · rename_i same
    subst same
    refine iff_of_false (by simp) ?_
    rintro ⟨member, ne⟩
    exact ne (Option.some.inj (((inv.agree _ _).mpr member).symm.trans found))
  · rename_i ne
    rw [inv.agree]
    refine (and_iff_left_of_imp ?_).symm
    rintro member rfl
    have same := List.inj_on_of_nodup_map inv.nodes member inList rfl
    exact ne (congrArg Prod.snd same)

theorem Inv.pushFront (inv : Inv lru) (absent : lru.map frame = none) :
    Inv (lru.pushFront frame) where
  nodes := by
    refine List.nodup_cons.mpr ⟨?_, inv.nodes⟩
    intro member
    obtain ⟨entry, inList, same⟩ := List.mem_map.mp member
    have := inv.fresh entry inList
    simp only at same
    omega
  frames := by
    refine List.nodup_cons.mpr ⟨?_, inv.frames⟩
    intro member
    obtain ⟨⟨node, other⟩, inList, rfl⟩ := List.mem_map.mp member
    rw [(inv.agree other node).mpr inList] at absent
    cases absent
  agree other node := by
    simp only [LRUManager.pushFront, Function.update_apply, List.mem_cons, Prod.mk.injEq]
    split
    · rename_i same
      subst same
      constructor
      · intro found
        exact .inl ⟨(Option.some.inj found).symm, rfl⟩
      · rintro (⟨rfl, -⟩ | member)
        · rfl
        · rw [(inv.agree other node).mpr member] at absent
          cases absent
    · rename_i ne
      simp [inv.agree, ne]
  fresh entry member := by
    simp only [LRUManager.pushFront, List.mem_cons] at member ⊢
    rcases member with rfl | old
    · exact Nat.lt_succ_self _
    · have := inv.fresh entry old
      omega

theorem Inv.pin (inv : Inv lru) (frame : Nat) : Inv (lru.pin frame) := by
  unfold LRUManager.pin
  cases found : lru.map frame with
  | none => exact inv.congr _
  | some node => exact (inv.erase found).congr _

theorem Inv.unPin (inv : Inv lru) (absent : lru.map frame = none) : Inv (lru.unPin frame) := by
  unfold LRUManager.unPin
  dsimp only
  split
  · exact (inv.congr _).pushFront absent
  · exact inv.congr _

theorem Inv.touch (inv : Inv lru) (frame : Nat) : Inv (lru.touch frame) := by
  unfold LRUManager.touch
  cases found : lru.map frame with
  | none => exact inv
  | some node =>
      have erased := (inv.erase found).pushFront (Function.update_self ..)
      have same : LRUManager.pushFront { lru with
            list := lru.eraseNode node
            map := Function.update lru.map frame none } frame =
          LRUManager.pushFront { lru with list := lru.eraseNode node } frame := by
        simp [LRUManager.pushFront]
      rw [same] at erased
      exact erased

/-! ## Who is listed, and how often pinned -/

@[simp] theorem pinCount_pin (lru : LRUManager) (frame : Nat) :
    (lru.pin frame).pinCount = Function.update lru.pinCount frame (lru.pinCount frame + 1) := by
  unfold pin
  cases lru.map frame <;> rfl

@[simp] theorem pinCount_unPin (lru : LRUManager) (frame : Nat) :
    (lru.unPin frame).pinCount = Function.update lru.pinCount frame (lru.pinCount frame - 1) := by
  unfold unPin
  dsimp only
  split <;> rfl

@[simp] theorem pinCount_touch (lru : LRUManager) (frame : Nat) :
    (lru.touch frame).pinCount = lru.pinCount := by
  unfold touch
  cases lru.map frame <;> rfl

/-- A pinned frame is not listed any more. -/
theorem map_pin (lru : LRUManager) (frame : Nat) :
    (lru.pin frame).map = Function.update lru.map frame none := by
  unfold pin
  cases found : lru.map frame with
  | none => exact (Function.update_eq_self_iff.mpr found.symm).symm
  | some node => rfl

theorem map_unPin (lru : LRUManager) (frame : Nat) :
    (lru.unPin frame).map =
      if lru.pinCount frame = 1 then Function.update lru.map frame (some lru.nextNode)
      else lru.map := by
  unfold unPin
  simp only [Function.update_self]
  by_cases one : lru.pinCount frame = 1
  · rw [if_pos (by omega), if_pos one]
    rfl
  · rw [if_neg (by omega), if_neg one]

/-- Touching a frame does not change who is listed. -/
theorem map_touch_isSome (lru : LRUManager) (frame other : Nat) :
    ((lru.touch frame).map other).isSome = (lru.map other).isSome := by
  unfold touch
  cases found : lru.map frame with
  | none => rfl
  | some node =>
      by_cases same : other = frame
      · simp [pushFront, same, found]
      · simp [pushFront, same]

theorem evict_isOk (lru : LRUManager) : lru.list ≠ [] ↔ ∃ frame, lru.evict = .ok frame := by
  unfold evict
  cases last : lru.list.getLast? with
  | none => simp [List.getLast?_eq_none_iff.mp last]
  | some entry =>
      refine iff_of_true ?_ ⟨_, rfl⟩
      intro empty
      simp [empty] at last

end LRUManager

end YourSQL
