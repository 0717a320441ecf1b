import YourSQL.Buffer.PoolRun

/-! # A page that is fetched and given back

What a client that holds one page at a time can rely on, whatever pages others hold in the
meantime: a fetch fails only where no frame is free and nobody else has the page, and after
the release the next fetch finds the pool as the first one did.
-/

namespace YourSQL.BufferManager

variable {m : BufferManager} {held : Nat → Nat} {room : Prop} {issued id frame : Nat}

/-- How often a page is pinned. -/
def pins (m : BufferManager) (id : Nat) : Int :=
  match m.bufferPages id with
  | some frame => m.lruManager.pinCount frame
  | none => 0

theorem Inv.pins_eq (inv : m.Inv held) : m.pins = fun id => (held id : Int) := by
  funext id
  unfold pins
  cases found : m.bufferPages id with
  | some frame => exact (inv.mapped id frame found).2.1
  | none => simp [inv.unmapped id found]

/-- The pages that are held are those in the pool. -/
theorem Inv.held_pos_iff (inv : m.Inv held) : 0 < held id ↔ m.bufferPages id ≠ none := by
  cases found : m.bufferPages id with
  | some frame => simpa using (inv.mapped id frame found).2.2
  | none => simp [inv.unmapped id found]

/-- A pool whose pages are held by others, with a free frame or without one. -/
structure Shared (m : BufferManager) (held : Nat → Nat) (room : Prop) (issued : Nat) : Prop where
  inv : m.Inv held
  room : m.freePages ≠ [] ↔ room
  issued : m.nextPageId = issued

/-- The same pool while the client has a page in a frame. -/
structure Pinned (m : BufferManager) (held : Nat → Nat) (room : Prop) (issued id frame : Nat) :
    Prop where
  inv : m.Inv (Function.update held id (held id + 1))
  found : m.bufferPages id = some frame
  named : (m.frames frame).id = id
  served : held id = 0 ∧ room ∨ 0 < held id ∧ (m.freePages ≠ [] ↔ room)
  issued : m.nextPageId = issued

theorem Inv.shared (inv : m.Inv held) : m.Shared held (m.freePages ≠ []) m.nextPageId :=
  ⟨inv, Iff.rfl, rfl⟩

theorem Shared.wp_fetchPage (shared : m.Shared held room issued) (small : id < issued) :
    (fetchPage id).wp (fun frame m' => m'.Pinned held room issued id frame)
      (fun _ _ => ¬ (0 < held id ∨ room)) m := by
  cases found : m.bufferPages id with
  | some frame =>
      rw [Program.wp_of_ok (run_fetchPage_mapped found)]
      exact
        { inv := (shared.inv.pin found).congr rfl rfl rfl rfl rfl
          found := found
          named := by simp [setPageId, setFrame]
          served := .inr ⟨(shared.inv.mapped id frame found).2.2, shared.room⟩
          issued := shared.issued }
  | none =>
      have unheld := shared.inv.unmapped id found
      cases last : m.freePages.getLast? with
      | none =>
          have full := List.getLast?_eq_none_iff.mp last
          rw [Program.wp_of_error (run_fetchPage_full shared.inv found full)]
          intro served
          cases served with
          | inl others => omega
          | inr free => exact shared.room.mpr free full
      | some frame =>
          rw [Program.wp_of_ok (run_fetchPage_free found last)]
          have loaded : (m.load frame id).Inv held := by
            apply shared.inv.congr <;> simp [load, setPageId, readFrame, setFrame]
          have free : m.freePages ≠ [] := by
            intro full
            rw [full] at last
            cases last
          refine
            { inv := loaded.occupy ?_ ?_ ?_ ?_
              found := Function.update_self ..
              named := by simp [BufferManager.occupy, load, setPageId, setFrame]
              served := .inl ⟨unheld, shared.room.mp free⟩
              issued := shared.issued }
          · simpa [load, setPageId, readFrame, setFrame] using last
          · simpa [load, setPageId, readFrame, setFrame] using found
          · simp [load, setPageId, readFrame, setFrame]
          · rwa [shared.issued]

theorem Pinned.run_release (pinned : m.Pinned held room issued id frame) :
    ∃ m', (release id).run m = (.ok ⟨⟩, m') ∧ m'.Shared held room issued := by
  refine ⟨_, BufferManager.run_release pinned.found, ?_⟩
  have cleaned := pinned.inv.clean frame
  have found : (m.clean frame).bufferPages id = some frame := by
    rw [clean_bufferPages, pinned.found]
  have inv := cleaned.vacate found
  rw [Function.update_self, Function.update_idem, Nat.add_sub_cancel, Function.update_eq_self] at inv
  refine ⟨inv, ?_, ?_⟩
  · have pinCount : (m.clean frame).lruManager.pinCount frame = (held id + 1 : Nat) := by
      have := (cleaned.mapped id frame found).2.1
      rwa [Function.update_self] at this
    have freePages : (m.clean frame).freePages = m.freePages := by
      unfold BufferManager.clean
      split <;> rfl
    have left : (m.clean frame).lruManager.pinCount frame - 1 = held id := by
      rw [pinCount]
      omega
    simp only [vacate, LRUManager.pinCount_unPin, Function.update_self, left]
    cases pinned.served with
    | inl last =>
        rw [if_pos (by rw [last.1]; rfl)]
        exact iff_of_true (List.cons_ne_nil _ _) last.2
    | inr others =>
        rw [if_neg (by omega)]
        simpa only [freePages] using others.2
  · rw [vacate_nextPageId, clean_nextPageId, pinned.issued]

end YourSQL.BufferManager
