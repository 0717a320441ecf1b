import YourSQL.Lib.Machine

/-! # A store with transactions, for one client

What is committed, and a copy that the statements of a transaction work on. COMMIT puts the
copy in its place and ROLLBACK throws it away. A statement outside of a transaction is one
by itself, and a statement that fails takes its transaction with it.
-/

namespace Transactional

structure Store (σ : Type u) where
  committed : σ
  working : Option σ := none

inductive Request (α : Type v) where
  | begin
  | commit
  | rollback
  | statement (a : α)

inductive Reply (β : Type w) where
  | begun
  | committed
  | rolledBack
  /-- BEGIN in a transaction. -/
  | alreadyBegun
  /-- COMMIT or ROLLBACK without one. -/
  | notBegun
  | done (answer : β)
  | failed

variable {σ : Type u} {α : Type v} {β : Type w} {meaning : α → σ → Option (β × σ)}
  {store : Store σ} {contents : σ}

namespace Store

/-- What the next statement works on. -/
def view (store : Store σ) : σ := store.working.getD store.committed

/-- A statement means an answer and a new content, or nothing where it fails. -/
def handle (meaning : α → σ → Option (β × σ)) (store : Store σ) : Request α → Reply β × Store σ
  | .begin =>
      match store.working with
      | none => (.begun, { store with working := some store.committed })
      | some _ => (.alreadyBegun, store)
  | .commit =>
      match store.working with
      | none => (.notBegun, store)
      | some contents => (.committed, { committed := contents })
  | .rollback =>
      match store.working with
      | none => (.notBegun, store)
      | some _ => (.rolledBack, { committed := store.committed })
  | .statement a =>
      match meaning a store.view with
      | none => (.failed, { committed := store.committed })
      | some (answer, contents) =>
          match store.working with
          | none => (.done answer, { committed := contents })
          | some _ => (.done answer, { store with working := some contents })

theorem handle_statement_of_none {a : α} (fails : meaning a store.view = none) :
    store.handle meaning (.statement a) = (.failed, { committed := store.committed }) := by
  unfold handle
  dsimp only
  rw [fails]

theorem handle_statement_of_some {a : α} {answer : β}
    (means : meaning a store.view = some (answer, contents)) :
    store.handle meaning (.statement a) =
      (.done answer, match store.working with
        | none => { committed := contents }
        | some _ => { store with working := some contents }) := by
  unfold handle
  dsimp only
  rw [means]
  cases store.working <;> rfl

/-- What is committed and the working copy, if there is one, have the property. -/
structure All (inv : σ → Prop) (store : Store σ) : Prop where
  committed : inv store.committed
  working : ∀ contents, store.working = some contents → inv contents

variable {inv : σ → Prop}

theorem All.view (all : store.All inv) : inv store.view := by
  unfold Store.view
  cases working : store.working with
  | none => exact all.committed
  | some contents => exact all.working contents working

/-- What the statements keep, every request keeps. -/
theorem All.handle (all : store.All inv) {request : Request α}
    (keeps : ∀ a answer contents, request = .statement a →
      meaning a store.view = some (answer, contents) → inv contents) :
    (store.handle meaning request).2.All inv := by
  have alone : (Store.mk store.committed none).All inv := ⟨all.committed, nofun⟩
  cases request with
  | begin =>
      unfold Store.handle
      dsimp only
      split
      · exact ⟨all.committed, fun _ same => Option.some.inj same ▸ all.committed⟩
      · exact all
  | commit =>
      unfold Store.handle
      dsimp only
      split
      · exact all
      · rename_i contents working
        exact ⟨all.working contents working, nofun⟩
  | rollback =>
      unfold Store.handle
      dsimp only
      split
      · exact all
      · exact alone
  | statement a =>
      cases means : meaning a store.view with
      | none =>
          rw [handle_statement_of_none means]
          exact alone
      | some result =>
          obtain ⟨answer, contents⟩ := result
          have kept := keeps a answer contents rfl means
          rw [handle_statement_of_some means]
          dsimp only
          split
          · exact ⟨kept, nofun⟩
          · exact ⟨all.committed, fun _ same => Option.some.inj same ▸ kept⟩

end Store

end Transactional
