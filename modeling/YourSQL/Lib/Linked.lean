import Mathlib.Data.List.Basic

/-! # Linked nodes

Each node names the next one, up to a name that stands for the end. The nodes that
one passes on the way are a list, and a node is linked behind the last of them by
changing that one only.
-/

variable {α : Type}

/-- The nodes from `first` on, up to the end. -/
def Linked (next : α → Option α) (stop : α) : α → List α → Prop
  | first, [] => first = stop
  | first, node :: rest =>
      first = node ∧ node ≠ stop ∧ ∃ second, next node = some second ∧ Linked next stop second rest

namespace Linked

variable {next next' : α → Option α} {stop first : α} {nodes : List α}

theorem congr (linked : Linked next stop first nodes)
    (agree : ∀ node ∈ nodes, next' node = next node) : Linked next' stop first nodes := by
  induction nodes generalizing first with
  | nil => exact linked
  | cons node rest ih =>
      obtain ⟨rfl, inner, second, named, linked⟩ := linked
      refine ⟨rfl, inner, second, (agree _ (List.mem_cons_self ..)).trans named, ?_⟩
      exact ih linked fun node member => agree node (List.mem_cons_of_mem _ member)

theorem head (linked : Linked next stop first nodes) : first = nodes.head?.getD stop := by
  cases nodes with
  | nil => exact linked
  | cons node rest => exact linked.1

/-- There is one way to the end. -/
theorem unique {nodes' : List α} (linked : Linked next stop first nodes)
    (linked' : Linked next stop first nodes') : nodes' = nodes := by
  induction nodes generalizing first nodes' with
  | nil =>
      cases nodes' with
      | nil => rfl
      | cons node rest =>
          obtain ⟨rfl, inner, -⟩ := linked'
          exact absurd linked inner
  | cons node rest ih =>
      obtain ⟨rfl, inner, second, named, linked⟩ := linked
      cases nodes' with
      | nil => exact absurd linked' inner
      | cons node' rest' =>
          obtain ⟨rfl, -, second', named', linked'⟩ := linked'
          obtain rfl := Option.some.inj (named.symm.trans named')
          rw [ih linked linked']

/-- From any node on, the rest is linked. -/
theorem behind {before after : List α} {node : α}
    (linked : Linked next stop first (before ++ node :: after)) :
    ∃ second, next node = some second ∧ Linked next stop second after := by
  induction before generalizing first with
  | nil => exact linked.2.2
  | cons head before ih =>
      obtain ⟨-, -, second, -, linked⟩ := linked
      exact ih linked

/-- A new node behind the last one. -/
theorem snoc {before : List α} {last new : α} (linked : Linked next stop first (before ++ [last]))
    (named : next' last = some new) (ends : next' new = some stop) (inner : new ≠ stop)
    (agree : ∀ node ∈ before, next' node = next node) :
    Linked next' stop first (before ++ [last, new]) := by
  induction before generalizing first with
  | nil =>
      obtain ⟨rfl, notStop, -⟩ := linked
      exact ⟨rfl, notStop, new, named, rfl, inner, stop, ends, rfl⟩
  | cons head before ih =>
      obtain ⟨rfl, notStop, second, here, linked⟩ := linked
      refine ⟨rfl, notStop, second, (agree _ (List.mem_cons_self ..)).trans here, ?_⟩
      exact ih linked fun node member => agree node (List.mem_cons_of_mem _ member)

end Linked
