import Mathlib.Data.List.Induction
import Mathlib.Data.List.Nodup
import Mathlib.Logic.Function.Basic

/-! # Maps built from lists of entries

A map that is filled entry by entry, each under its key. While the keys are distinct, an
entry that is replaced by one of the same key changes the map at that key.
-/

namespace Index

variable {α : Type u} {κ : Type v} {β : Type w} [DecidableEq κ] {key : α → κ} {val : α → β}

def insert (key : α → κ) (val : α → β) (map : κ → Option β) (a : α) : κ → Option β :=
  Function.update map (key a) (some (val a))

def fill (key : α → κ) (val : α → β) (entries : List α) (map : κ → Option β) : κ → Option β :=
  entries.foldl (insert key val) map

theorem fill_concat (entries : List α) (a : α) (map : κ → Option β) :
    fill key val (entries ++ [a]) map = insert key val (fill key val entries map) a :=
  List.foldl_concat ..

omit [DecidableEq κ] in
theorem nodup_concat {entries : List α} {a : α} (distinct : (entries.map key).Nodup)
    (absent : key a ∉ entries.map key) : ((entries ++ [a]).map key).Nodup := by
  rw [List.map_append, List.map_singleton, ← List.concat_eq_append]
  exact List.Nodup.concat absent distinct

theorem fill_append (first second : List α) (map : κ → Option β) :
    fill key val (first ++ second) map = fill key val second (fill key val first map) :=
  List.foldl_append

theorem fill_of_notMem {entries : List α} {k : κ} (absent : k ∉ entries.map key)
    (map : κ → Option β) : fill key val entries map k = map k := by
  induction entries generalizing map with
  | nil => rfl
  | cons a rest ih =>
      simp only [List.map_cons, List.mem_cons, not_or] at absent
      have step : fill key val (a :: rest) map = fill key val rest (insert key val map a) := rfl
      rw [step, ih absent.2, insert, Function.update_of_ne absent.1]

/-- An entry that no later one shares its key with is what the map has. -/
theorem fill_update {entries : List α} {k : κ} (absent : k ∉ entries.map key)
    (map : κ → Option β) (b : Option β) :
    fill key val entries (Function.update map k b) =
      Function.update (fill key val entries map) k b := by
  induction entries generalizing map with
  | nil => rfl
  | cons a rest ih =>
      simp only [List.map_cons, List.mem_cons, not_or] at absent
      calc fill key val (a :: rest) (Function.update map k b) =
          fill key val rest (insert key val (Function.update map k b) a) := rfl
        _ = fill key val rest (Function.update (insert key val map a) k b) := by
          rw [insert, insert, Function.update_comm absent.1]
        _ = Function.update (fill key val (a :: rest) map) k b := ih absent.2 _

theorem fill_mem {entries : List α} (distinct : (entries.map key).Nodup) {a : α}
    (member : a ∈ entries) (map : κ → Option β) :
    fill key val entries map (key a) = some (val a) := by
  obtain ⟨before, after, rfl⟩ := List.append_of_mem member
  have absent : key a ∉ after.map key := by
    simp only [List.map_append, List.map_cons] at distinct
    exact (List.nodup_cons.mp distinct.of_append_right).1
  have step : fill key val (before ++ a :: after) map =
      fill key val after (insert key val (fill key val before map) a) := fill_append ..
  rw [step, fill_of_notMem absent, insert, Function.update_self]

/-- The map knows entries of the list only. -/
theorem exists_of_fill {entries : List α} {k : κ} {b : β}
    (found : fill key val entries (fun _ => none) k = some b) :
    ∃ a ∈ entries, key a = k ∧ val a = b := by
  induction entries using List.reverseRecOn with
  | nil => cases found
  | append_singleton entries last ih =>
      rw [fill_concat, insert] at found
      cases Decidable.em (k = key last) with
      | inl same =>
          rw [same, Function.update_self] at found
          exact ⟨last, by simp, same.symm, Option.some.inj found⟩
      | inr other =>
          rw [Function.update_of_ne other] at found
          obtain ⟨a, member, holds⟩ := ih found
          exact ⟨a, List.mem_append_left _ member, holds⟩

/-- One entry in place of another of the same key. -/
theorem fill_replace {before after : List α} {a b : α}
    (distinct : ((before ++ a :: after).map key).Nodup) (same : key b = key a)
    (map : κ → Option β) :
    fill key val (before ++ b :: after) map =
      Function.update (fill key val (before ++ a :: after) map) (key a) (some (val b)) := by
  have absent : key a ∉ after.map key := by
    simp only [List.map_append, List.map_cons] at distinct
    exact (List.nodup_cons.mp distinct.of_append_right).1
  have filled : ∀ c, fill key val (before ++ c :: after) map =
      fill key val after (Function.update (fill key val before map) (key c) (some (val c))) :=
    fun c => fill_append ..
  rw [filled, filled, same, fill_update absent, fill_update absent, Function.update_idem]

/-! ## The last entry of a key -/

section LastIndex

variable [DecidableEq α]

/-- The position of the last `a` in the list. -/
def lastIndexOf? (a : α) : List α → Option Nat
  | [] => none
  | b :: rest =>
      match lastIndexOf? a rest with
      | some i => some (i + 1)
      | none => if b = a then some 0 else none

theorem lastIndexOf?_concat (a b : α) (entries : List α) :
    lastIndexOf? a (entries ++ [b]) =
      if b = a then some entries.length else lastIndexOf? a entries := by
  induction entries with
  | nil => rfl
  | cons c rest ih =>
      simp only [List.cons_append, lastIndexOf?, ih, List.length_cons]
      cases decEq b a with
      | isTrue same => simp only [if_pos same]
      | isFalse other => simp only [if_neg other]

theorem getElem?_of_lastIndexOf? {a : α} {entries : List α} {i : Nat}
    (last : lastIndexOf? a entries = some i) : entries[i]? = some a := by
  induction entries generalizing i with
  | nil => cases last
  | cons b rest ih =>
      rw [lastIndexOf?] at last
      cases later : lastIndexOf? a rest with
      | some j =>
          rw [later] at last
          obtain rfl := Option.some.inj last
          exact ih later
      | none =>
          rw [later] at last
          cases decEq b a with
          | isTrue same =>
              simp only [if_pos same] at last
              obtain rfl := Option.some.inj last
              exact congrArg some same
          | isFalse other =>
              simp only [if_neg other] at last
              cases last

/-- Nothing equal comes later. -/
theorem exists_lastIndexOf? {a : α} {entries : List α} {i : Nat} (here : entries[i]? = some a) :
    ∃ j, lastIndexOf? a entries = some j ∧ i ≤ j := by
  induction entries generalizing i with
  | nil => cases here
  | cons b rest ih =>
      cases i with
      | succ i =>
          obtain ⟨j, later, le⟩ := ih here
          exact ⟨j + 1, by rw [lastIndexOf?, later], Nat.succ_le_succ le⟩
      | zero =>
          obtain rfl := Option.some.inj here
          rw [lastIndexOf?]
          cases lastIndexOf? b rest with
          | some j => exact ⟨j + 1, rfl, Nat.zero_le _⟩
          | none => exact ⟨0, if_pos rfl, Nat.le_refl _⟩

theorem lastIndexOf?_isSome {a : α} {entries : List α} (member : a ∈ entries) :
    ∃ i, lastIndexOf? a entries = some i := by
  obtain ⟨i, here⟩ := List.getElem?_of_mem member
  obtain ⟨j, last, -⟩ := exists_lastIndexOf? here
  exact ⟨j, last⟩

theorem lastIndexOf?_of_notMem {a : α} {entries : List α} (absent : a ∉ entries) :
    lastIndexOf? a entries = none := by
  cases last : lastIndexOf? a entries with
  | none => rfl
  | some i => exact absurd (List.mem_of_getElem? (getElem?_of_lastIndexOf? last)) absent

end LastIndex

end Index
