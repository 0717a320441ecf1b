import Mathlib.Data.List.TakeWhile

/-! # Lower bounds by halving

The search of `std::lower_bound`: a range of an array is halved until it is empty.
Where the search stops is a boundary between an item that comes before what is
searched and one that does not, whatever order the items are in.
-/

namespace LowerBound

variable {α : Type}

/-- The loop on the `len` items from `first` on. A round makes the range shorter. -/
def positionFrom (before : α → Bool) (items : List α) : (fuel first len : Nat) → Nat
  | 0, first, _ => first
  | fuel + 1, first, len =>
      if len = 0 then
        first
      else if items[first + len / 2]?.any before then
        positionFrom before items fuel (first + len / 2 + 1) (len - len / 2 - 1)
      else
        positionFrom before items fuel first (len / 2)

/-- The position of the first item that does not come before, in a range that is
    partitioned by `before`. -/
def position (before : α → Bool) (items : List α) : Nat :=
  positionFrom before items items.length 0 items.length

variable {before : α → Bool} {items : List α} {fuel first len : Nat}

/-- The search stays in its range, the item in front of where it stops was found to come
    before, and the item there was found not to. -/
theorem from_boundary (enough : len ≤ fuel) :
    first ≤ positionFrom before items fuel first len ∧
      positionFrom before items fuel first len ≤ first + len ∧
      (first < positionFrom before items fuel first len →
        items[positionFrom before items fuel first len - 1]?.any before) ∧
      (positionFrom before items fuel first len < first + len →
        ¬ items[positionFrom before items fuel first len]?.any before) := by
  induction fuel generalizing first len with
  | zero =>
      have empty : len = 0 := Nat.le_zero.mp enough
      simp only [positionFrom]
      omega
  | succ fuel ih =>
      simp only [positionFrom]
      split
      · omega
      · rename_i occupied
        split
        · rename_i comesBefore
          obtain ⟨low, high, left, right⟩ :=
            @ih (first + len / 2 + 1) (len - len / 2 - 1) (by omega)
          refine ⟨by omega, by omega, fun _ => ?_, fun inside => right (by omega)⟩
          cases Nat.lt_or_eq_of_le low with
          | inl later => exact left later
          | inr here => rwa [← here, Nat.add_sub_cancel]
        · rename_i notBefore
          obtain ⟨low, high, left, right⟩ := @ih first (len / 2) (by omega)
          refine ⟨low, by omega, left, fun _ => ?_⟩
          cases Nat.lt_or_eq_of_le high with
          | inl earlier => exact right earlier
          | inr here => rwa [here]

/-- A search that stops where it started has looked at the second item too. -/
theorem from_eq_first (enough : len ≤ fuel) (stopped : positionFrom before items fuel first len = first)
    (two : 2 ≤ len) : ¬ items[first + 1]?.any before := by
  induction fuel generalizing len with
  | zero => omega
  | succ fuel ih =>
      simp only [positionFrom] at stopped
      split at stopped
      · omega
      · split at stopped
        · have low := (@from_boundary _ before items fuel (first + len / 2 + 1)
            (len - len / 2 - 1) (by omega)).1
          omega
        · rename_i notBefore
          cases Nat.lt_or_eq_of_le (show 1 ≤ len / 2 by omega) with
          | inl more => exact ih (by omega) stopped more
          | inr one => rwa [← one] at notBefore

theorem le_length : position before items ≤ items.length := by
  have := (@from_boundary _ before items _ 0 _ (Nat.le_refl items.length)).2.1
  rwa [Nat.zero_add] at this

theorem before_left {item : α} (positive : 0 < position before items)
    (left : items[position before items - 1]? = some item) : before item := by
  have := (@from_boundary _ before items _ 0 _ (Nat.le_refl items.length)).2.2.1 positive
  rw [← position, left] at this
  exact this

theorem not_before {item : α} (here : items[position before items]? = some item) :
    ¬ before item := by
  have inside : position before items < items.length := (List.getElem?_eq_some_iff.mp here).1
  have := (@from_boundary _ before items _ 0 _ (Nat.le_refl items.length)).2.2.2 (by
    rwa [Nat.zero_add])
  rw [← position, here] at this
  exact this

theorem not_before_second {item : α} (stopped : position before items = 0)
    (second : items[1]? = some item) : ¬ before item := by
  have two : 2 ≤ items.length := (List.getElem?_eq_some_iff.mp second).1
  have := from_eq_first (Nat.le_refl _) stopped two
  rw [Nat.zero_add, second] at this
  exact this

section Partitioned

variable (partitioned : items.Pairwise fun item later => before later → before item)
include partitioned

theorem before_of_mem_take {item : α} (member : item ∈ items.take (position before items)) :
    before item := by
  obtain ⟨index, inside, rfl⟩ := List.getElem_of_mem member
  rw [List.length_take] at inside
  have last : position before items - 1 < items.length := by
    have := @le_length _ before items
    omega
  have lastBefore := before_left (by omega) (List.getElem?_eq_getElem last)
  rw [List.getElem_take]
  cases Nat.lt_or_eq_of_le (show index ≤ position before items - 1 by omega) with
  | inl earlier => exact List.pairwise_iff_getElem.mp partitioned _ _ _ last earlier lastBefore
  | inr same => simpa only [same] using lastBefore

theorem not_before_of_mem_drop {item : α} (member : item ∈ items.drop (position before items)) :
    ¬ before item := by
  obtain ⟨index, inside, rfl⟩ := List.getElem_of_mem member
  rw [List.length_drop] at inside
  rw [List.getElem_drop]
  have first := not_before (List.getElem?_eq_getElem (show position before items < items.length by omega))
  cases Nat.eq_zero_or_pos index with
  | inl here =>
      subst here
      exact first
  | inr later =>
      exact fun found => first (List.pairwise_iff_getElem.mp partitioned _ _ _ _ (by omega) found)

/-- The boundary is where the first part ends. -/
theorem eq_length_takeWhile : position before items = (items.takeWhile before).length := by
  have behind : (items.drop (position before items)).takeWhile before = [] := by
    cases rest : items.drop (position before items) with
    | nil => rfl
    | cons item later =>
        have head : item ∈ items.drop (position before items) := by simp [rest]
        rw [List.takeWhile_cons_of_neg (not_before_of_mem_drop partitioned head)]
  calc position before items
      = (items.take (position before items)).length := by
        rw [List.length_take, Nat.min_eq_left le_length]
    _ = ((items.take (position before items) ++
          items.drop (position before items)).takeWhile before).length := by
        rw [List.takeWhile_append_of_pos fun item => before_of_mem_take partitioned, behind,
          List.append_nil]
    _ = (items.takeWhile before).length := by rw [List.take_append_drop]

end Partitioned

end LowerBound
