import YourSQL.Index.IndexPage

/-! # The way down through an internal page

`InsertInfoParent` and `InsertAfter` put the lower bound of a child beside it, and the
first key of a page says nothing. `LookupChild` searches all keys, the first one too, for
one that is not below: what it returns is the right child where the key is a separator,
and else almost always the next one, or what is behind the array.
-/

namespace YourSQL

variable {K : Type} [LinearOrder K]

/-- What the writers keep of an internal page: the keys behind the first one ascend. -/
structure Separated (children : List (K × Nat)) : Prop where
  occupied : children ≠ []
  ascending : (children.tail.map Prod.fst).Pairwise (· < ·)

/-- The keys that the child at an index holds. -/
structure InRange (children : List (K × Nat)) (index : Nat) (key : K) : Prop where
  present : index < children.length
  lower : ∀ child, 0 < index → children[index]? = some child → child.1 ≤ key
  upper : ∀ child, children[index + 1]? = some child → key < child.1

/-- The key is below all separators and not above the first key, or it is a separator, and
    the first one only where the first key is below it. -/
def Routable (children : List (K × Nat)) (key : K) : Prop :=
  (∃ first, children[0]? = some first ∧ key ≤ first.1 ∧
    ∀ child, children[1]? = some child → key < child.1) ∨
  ∃ index child, 0 < index ∧ children[index]? = some child ∧ child.1 = key ∧
    (index = 1 → ∀ first, children[0]? = some first → first.1 < key)

namespace Separated

variable {children : List (K × Nat)} {index later : Nat} {child child' : K × Nat} {key : K}

theorem lt (separated : Separated children) (positive : 0 < index) (before : index < later)
    (here : children[index]? = some child) (there : children[later]? = some child') :
    child.1 < child'.1 := by
  cases children with
  | nil => cases here
  | cons first rest =>
      obtain ⟨index, rfl⟩ := Nat.exists_eq_succ_of_ne_zero (Nat.ne_of_gt positive)
      obtain ⟨later, rfl⟩ := Nat.exists_eq_succ_of_ne_zero (Nat.ne_of_gt (Nat.zero_lt_of_lt before))
      simp only [List.getElem?_cons_succ, Nat.succ_eq_add_one] at here there
      obtain ⟨inside, rfl⟩ := List.getElem?_eq_some_iff.mp here
      obtain ⟨inside', rfl⟩ := List.getElem?_eq_some_iff.mp there
      have ascending := List.pairwise_map.mp separated.ascending
      exact List.pairwise_iff_getElem.mp ascending index later inside inside' (by omega)

theorem le (separated : Separated children) (positive : 0 < index) (before : index ≤ later)
    (here : children[index]? = some child) (there : children[later]? = some child') :
    child.1 ≤ child'.1 := by
  cases Nat.lt_or_eq_of_le before with
  | inl strictly => exact le_of_lt (separated.lt positive strictly here there)
  | inr same =>
      rw [same, there] at here
      rw [Option.some.inj here]

/-- The ranges of two children have no key in common. -/
theorem inRange_unique (separated : Separated children) (here : InRange children index key)
    (there : InRange children later key) : index = later := by
  have notBefore : ∀ {one other : Nat}, InRange children one key → InRange children other key →
      ¬ one < other := by
    intro one other inOne inOther before
    obtain ⟨last, found⟩ : ∃ last, children[other]? = some last :=
      ⟨_, List.getElem?_eq_getElem inOther.present⟩
    obtain ⟨next, after⟩ : ∃ next, children[one + 1]? = some next :=
      ⟨_, List.getElem?_eq_getElem (by have := inOther.present; omega)⟩
    have above : key < next.1 := inOne.upper next after
    have below : last.1 ≤ key := inOther.lower last (by omega) found
    have ordered : next.1 ≤ last.1 := separated.le (by omega) (by omega) after found
    exact absurd above (not_lt_of_ge (le_trans ordered below))
  have := notBefore here there
  have := notBefore there here
  omega

end Separated

namespace IndexObject

variable {V : Type} {object : IndexObject K V} {key : K} {index : Nat} {child : K × Nat}

/-- The entry that `LookupChild` reads is there, it is the one whose range contains the
    key, and its child is returned. -/
def RoutesRight (object : IndexObject K V) (key : K) : Prop :=
  ∃ child, object.children[object.childIndex key]? = some child ∧
    InRange object.children (object.childIndex key) key ∧ object.lookupChild key = .ok child.2

theorem lookupChild_of_getElem? (found : object.children[object.childIndex key]? = some child) :
    object.lookupChild key = .ok child.2 := by
  simp only [lookupChild, childAt, found]
  rfl

theorem routesRight_iff_inRange :
    object.RoutesRight key ↔ InRange object.children (object.childIndex key) key := by
  constructor
  · intro ⟨_, _, inRange, _⟩
    exact inRange
  · intro inRange
    have found := List.getElem?_eq_getElem inRange.present
    exact ⟨_, found, inRange, lookupChild_of_getElem? found⟩

/-! ## Where the search stops -/

theorem key_le_childIndex (here : object.children[object.childIndex key]? = some child) :
    key ≤ child.1 := by
  have := LowerBound.not_before here
  simpa using this

theorem lt_of_lt_childIndex (positive : 0 < object.childIndex key)
    (left : object.children[object.childIndex key - 1]? = some child) : child.1 < key := by
  have := LowerBound.before_left positive left
  simpa using this

/-- The search does not end at the first key with the first separator below the key. -/
theorem key_le_of_childIndex_zero (stopped : object.childIndex key = 0)
    (second : object.children[1]? = some child) : key ≤ child.1 := by
  have := LowerBound.not_before_second stopped second
  simpa using this

theorem childIndex_le_length : object.childIndex key ≤ object.children.length :=
  LowerBound.le_length

/-- The boundary at a later position than the first is the only one the search finds. -/
theorem childIndex_eq (separated : Separated object.children) (positive : 0 < index)
    (inside : index ≤ object.children.length)
    (left : ∀ child, object.children[index - 1]? = some child → child.1 < key)
    (right : ∀ child, object.children[index]? = some child → key ≤ child.1) :
    object.childIndex key = index := by
  have last := left _ (List.getElem?_eq_getElem (show index - 1 < object.children.length by omega))
  cases Nat.lt_trichotomy (object.childIndex key) index with
  | inl early =>
      have here : object.children[object.childIndex key]? = some _ :=
        List.getElem?_eq_getElem (by omega)
      have notBefore := key_le_childIndex here
      cases Nat.eq_zero_or_pos (object.childIndex key) with
      | inr later =>
          have ordered := separated.le later (show _ ≤ index - 1 by omega) here
            (List.getElem?_eq_getElem (by omega))
          exact absurd last (not_lt_of_ge (le_trans notBefore ordered))
      | inl zero =>
          cases Nat.lt_or_eq_of_le (show 1 ≤ index from positive) with
          | inl second =>
              have one : object.children[1]? = some _ := List.getElem?_eq_getElem (by omega)
              have ordered := separated.le (Nat.one_pos) (show 1 ≤ index - 1 by omega) one
                (List.getElem?_eq_getElem (by omega))
              exact absurd last
                (not_lt_of_ge (le_trans (key_le_of_childIndex_zero zero one) ordered))
          | inr first =>
              subst first
              simp only [zero] at notBefore
              exact absurd last (not_lt_of_ge notBefore)
  | inr rest =>
      cases rest with
      | inl same => exact same
      | inr late =>
          have bound := @childIndex_le_length _ _ _ object key
          have before : object.children[object.childIndex key - 1]? = some _ :=
            List.getElem?_eq_getElem (by omega)
          have below := lt_of_lt_childIndex (by omega) before
          have found : object.children[index]? = some _ := List.getElem?_eq_getElem (by omega)
          have ordered := separated.le positive (show index ≤ _ by omega) found before
          exact absurd below (not_lt_of_ge (le_trans (right _ found) ordered))

theorem childIndex_eq_zero {first : K × Nat} (separated : Separated object.children)
    (zeroth : object.children[0]? = some first) (notAbove : key ≤ first.1)
    (upper : ∀ child, object.children[1]? = some child → key < child.1) :
    object.childIndex key = 0 := by
  cases Nat.eq_zero_or_pos (object.childIndex key) with
  | inl zero => exact zero
  | inr positive =>
      have bound := @childIndex_le_length _ _ _ object key
      have before : object.children[object.childIndex key - 1]? = some _ :=
        List.getElem?_eq_getElem (by omega)
      have below := lt_of_lt_childIndex positive before
      cases Nat.lt_or_eq_of_le (show 1 ≤ object.childIndex key from positive) with
      | inl later =>
          have one : object.children[1]? = some _ := List.getElem?_eq_getElem (by omega)
          have ordered := separated.le Nat.one_pos (show 1 ≤ _ by omega) one before
          exact absurd below (not_lt_of_ge (le_trans (le_of_lt (upper _ one)) ordered))
      | inr one =>
          simp only [← one, Nat.sub_self, zeroth, Option.some.injEq] at before
          simp only [before] at notAbove
          exact absurd below (by simpa only [← one] using not_lt_of_ge notAbove)

/-- A key inside a range, and not at its lower end, is sent one child too far. -/
theorem childIndex_of_inside (separated : Separated object.children)
    (inRange : InRange object.children index key) (found : object.children[index]? = some child)
    (above : child.1 < key) : object.childIndex key = index + 1 := by
  have present := inRange.present
  apply childIndex_eq separated (Nat.succ_pos _) present
  · intro child' same
    rw [Nat.succ_sub_one, found] at same
    exact Option.some.inj same ▸ above
  · intro next after
    exact le_of_lt (inRange.upper next after)

/-- Above the last separator the index is behind the array. -/
theorem lookupChild_above (separated : Separated object.children)
    (last : object.children.getLast? = some child) (above : child.1 < key) :
    object.lookupChild key = .error UNDEFINED := by
  have occupied : 0 < object.children.length := List.length_pos_of_ne_nil separated.occupied
  have found : object.children[object.children.length - 1]? = some child := by
    rwa [← List.getLast?_eq_getElem?]
  have behind : object.childIndex key = object.children.length - 1 + 1 := by
    apply childIndex_eq separated (Nat.succ_pos _) (by omega)
    · intro child' same
      rw [Nat.succ_sub_one, found] at same
      exact Option.some.inj same ▸ above
    · intro next after
      have := (List.getElem?_eq_some_iff.mp after).1
      omega
  have absent : object.children[object.childIndex key]? = none :=
    List.getElem?_eq_none (by omega)
  simp only [lookupChild, childAt, absent]
  rfl

/-- A key that is a separator leads to the child beside it. -/
theorem childIndex_of_separator (separated : Separated object.children) (positive : 0 < index)
    (found : object.children[index]? = some child)
    (first : index = 1 → ∀ child, object.children[0]? = some child → child.1 < key)
    (same : child.1 = key) : object.childIndex key = index := by
  have inside := (List.getElem?_eq_some_iff.mp found).1
  apply childIndex_eq separated positive (Nat.le_of_lt inside)
  · intro child' before
    cases Nat.lt_or_eq_of_le (show 1 ≤ index from positive) with
    | inl later =>
        rw [← same]
        exact separated.lt (by omega) (by omega) before found
    | inr one =>
        subst one
        exact first rfl child' before
  · intro child' again
    rw [found] at again
    rw [← Option.some.inj again, same]

/-- The right child is found for exactly the separators themselves, but for a first one
    that the first key is not below, and for the keys below all separators that the first
    key is not below either. -/
theorem lookupChild_routes_iff (object : IndexObject K V) (key : K)
    (separated : Separated object.children) :
    object.RoutesRight key ↔ Routable object.children key := by
  rw [routesRight_iff_inRange]
  constructor
  · intro inRange
    obtain ⟨child, here⟩ : ∃ child, object.children[object.childIndex key]? = some child :=
      ⟨_, List.getElem?_eq_getElem inRange.present⟩
    have notBefore := key_le_childIndex here
    cases Nat.eq_zero_or_pos (object.childIndex key) with
    | inl zero =>
        have upper := inRange.upper
        rw [zero] at here upper
        exact .inl ⟨child, here, notBefore, upper⟩
    | inr positive =>
        have same := le_antisymm (inRange.lower _ positive here) notBefore
        refine .inr ⟨_, _, positive, here, same, fun one first zeroth => ?_⟩
        apply lt_of_lt_childIndex positive
        rwa [one]
  · intro routable
    cases routable with
    | inl low =>
        obtain ⟨first, zeroth, notAbove, upper⟩ := low
        have stopped : object.childIndex key = 0 := childIndex_eq_zero separated zeroth notAbove upper
        rw [stopped]
        exact ⟨(List.getElem?_eq_some_iff.mp zeroth).1, fun _ positive => absurd positive (by omega),
          upper⟩
    | inr separator =>
        obtain ⟨index, child, positive, found, same, first⟩ := separator
        rw [childIndex_of_separator separated positive found first same]
        refine ⟨(List.getElem?_eq_some_iff.mp found).1, fun child' _ again => ?_, fun next after => ?_⟩
        · rw [found] at again
          rw [← Option.some.inj again, same]
        · rw [← same]
          exact separated.lt positive (Nat.lt_succ_self index) found after

/-- Two children of a root: the separator 10 itself leads to the second one. -/
def twoChildren : IndexObject Nat Nat := { children := [(0, 1), (10, 2)] }

theorem twoChildren_separated : Separated twoChildren.children :=
  ⟨by decide, by decide⟩

theorem lookupChild_routes_iff_twoChildren :
    twoChildren.RoutesRight 10 ↔ Routable twoChildren.children 10 :=
  lookupChild_routes_iff twoChildren 10 twoChildren_separated

/-- The key 5 lies below the separator, and its child is passed over. -/
theorem lookupChild_passes_over :
    ¬ (∀ (object : IndexObject Nat Nat) (key : Nat), Separated object.children →
      object.RoutesRight key) := by
  intro routes
  have inRange := routesRight_iff_inRange.mp (routes twoChildren 5 twoChildren_separated)
  have lower := inRange.lower (10, 2) (by decide) rfl
  exact absurd lower (by decide)

/-! ## The writer -/

/-- A child that is split at a key inside its range leaves the page as the convention has
    it. -/
theorem insertAfter_separated (separated : Separated object.children) {oldChild newChild : Nat}
    (old : (object.children.findIdx? fun child => child.2 = oldChild) = some index)
    (inRange : InRange object.children index key)
    (inside : ∀ child, 0 < index → object.children[index]? = some child → child.1 < key) :
    Separated (object.insertAfter oldChild key newChild).children := by
  have written : (object.insertAfter oldChild key newChild).children =
      object.children.take (index + 1) ++ (key, newChild) :: object.children.drop (index + 1) := by
    simp only [insertAfter, old]
    rfl
  have below : ∀ child ∈ (object.children.take (index + 1)).tail, child.1 < key := by
    intro child member
    obtain ⟨position, here⟩ := List.mem_iff_getElem?.mp member
    rw [List.getElem?_tail, List.getElem?_take] at here
    split at here
    · rename_i early
      obtain ⟨last, found⟩ : ∃ last, object.children[index]? = some last :=
        ⟨_, List.getElem?_eq_getElem inRange.present⟩
      exact lt_of_le_of_lt (separated.le (Nat.succ_pos position) (by omega) here found)
        (inside last (by omega) found)
    · cases here
  have above : ∀ child ∈ object.children.drop (index + 1), key < child.1 := by
    intro child member
    obtain ⟨position, here⟩ := List.mem_iff_getElem?.mp member
    rw [List.getElem?_drop] at here
    obtain ⟨next, after⟩ : ∃ next, object.children[index + 1]? = some next :=
      ⟨_, List.getElem?_eq_getElem (by
        have := (List.getElem?_eq_some_iff.mp here).1
        omega)⟩
    exact lt_of_lt_of_le (inRange.upper next after)
      (separated.le (Nat.succ_pos index) (by omega) after here)
  have occupied : object.children.take (index + 1) ≠ [] := by
    intro empty
    have := congrArg List.length empty
    have := inRange.present
    simp only [List.length_take, List.length_nil] at *
    omega
  have parts : (object.children.take (index + 1)).tail ++ object.children.drop (index + 1) =
      object.children.tail := by
    rw [← List.tail_append_of_ne_nil occupied, List.take_append_drop]
  have ascending := List.pairwise_map.mp separated.ascending
  rw [← parts] at ascending
  obtain ⟨front, back, across⟩ := List.pairwise_append.mp ascending
  rw [written]
  constructor
  · simp
  · rw [List.tail_append_of_ne_nil occupied]
    apply List.pairwise_map.mpr
    apply List.pairwise_append.mpr
    refine ⟨front, List.pairwise_cons.mpr ⟨above, back⟩, fun child early child' late => ?_⟩
    cases List.mem_cons.mp late with
    | inl new =>
        rw [new]
        exact below child early
    | inr later => exact across child early child' later

end IndexObject

end YourSQL
