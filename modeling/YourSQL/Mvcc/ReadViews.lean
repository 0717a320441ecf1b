import YourSQL.Mvcc.LogicalRow

/-! # Read views and the journal

While every command runs to its end before the next one, the manager's tables and
the journal tell the same story: who is under way, who has committed, and what each
read view was taken over. `IsVisible` then answers exactly whether a writer belongs to
the snapshot.
-/

namespace YourSQL.Mvcc

/-- A read view of an active transaction, and the journal since it was taken. -/
structure ViewInv (m : TransactionManager) (journal : List Event) (trx : Nat)
    (view : ReadView) : Prop where
  createTrxId : view.createTrxId = trx
  below : ∀ v ∈ snapshotOf trx journal, v < view.lowLimitId
  notActive : ∀ v ∈ snapshotOf trx journal, v ∉ view.activeIds
  upLimit : ∀ v ∈ view.activeIds, view.upLimitId ≤ v
  upLimit_le : view.upLimitId ≤ view.lowLimitId
  /-- Who is neither active in the view nor above it had ended before. -/
  ended : ∀ v, 1 ≤ v → v < view.lowLimitId → v ≠ trx → v ∉ view.activeIds →
    v ∈ snapshotOf trx journal ∨ m.isAborted v = true

structure ManagerBase (m : TransactionManager) (journal : List Event) : Prop where
  issued : ∀ v ∈ m.activeTxns, 1 ≤ v ∧ v < m.nextTxid
  issuedCommitted : ∀ v ∈ committedOf journal, 1 ≤ v ∧ v < m.nextTxid
  active : ∀ v, v ∈ m.activeTxns → m.txnState v = some .inProgress
  committed : ∀ v, m.txnState v = some .committed ↔ v ∈ committedOf journal
  total : ∀ v, 1 ≤ v → v < m.nextTxid →
    v ∈ m.activeTxns ∨ v ∈ committedOf journal ∨ m.isAborted v = true
  next : 1 ≤ m.nextTxid
  unissued : ∀ v, m.nextTxid ≤ v → m.txnState v = none
  state : ∀ v ∈ m.activeTxns, (m.transaction v).state = .inProgress
  /-- Who is in a snapshot has all of its own snapshot there. -/
  transitive : ∀ t u, u ∈ snapshotOf t journal → ∀ v ∈ snapshotOf u journal,
    v ∈ snapshotOf t journal

/-- The active transaction has a read view. -/
def HasView (m : TransactionManager) (journal : List Event) (trx : Nat) : Prop :=
  ∃ view, (m.transaction trx).readView = some view ∧ ViewInv m journal trx view

structure ManagerInv (m : TransactionManager) (journal : List Event) : Prop
    extends ManagerBase m journal where
  views : ∀ v ∈ m.activeTxns, HasView m journal v

namespace ManagerBase

variable {m : TransactionManager} {journal : List Event} {trx v : Nat}

theorem not_committed_of_active (inv : ManagerBase m journal) (active : v ∈ m.activeTxns) :
    v ∉ committedOf journal := by
  intro member
  have one := inv.active v active
  rw [(inv.committed v).mpr member] at one
  cases one

theorem not_aborted_of_active (inv : ManagerBase m journal) (active : v ∈ m.activeTxns) :
    m.isAborted v = false := by
  simp [TransactionManager.isAborted, inv.active v active]

theorem not_aborted_of_committed (inv : ManagerBase m journal) (member : v ∈ committedOf journal) :
    m.isAborted v = false := by
  simp [TransactionManager.isAborted, (inv.committed v).mpr member]

/-- `IsVisible` of the view that an active transaction has, for a writer whose writes
    are there. -/
theorem isVisible_iff (inv : ManagerBase m journal) {view : ReadView}
    (has : ViewInv m journal trx view)
    (known : v ∈ m.activeTxns ∨ v ∈ committedOf journal) :
    view.isVisible (some m) v = seenBy trx journal v := by
  have positive : 1 ≤ v := by
    rcases known with active | committed
    · exact (inv.issued v active).1
    · exact (inv.issuedCommitted v committed).1
  have notAborted : m.isAborted v = false := by
    rcases known with active | committed
    · exact inv.not_aborted_of_active active
    · exact inv.not_aborted_of_committed committed
  have notInvalid : v ≠ INVALID_TX_ID := by
    simp only [INVALID_TX_ID]
    omega
  rw [Bool.eq_iff_iff, seenBy_iff]
  unfold ReadView.isVisible
  rw [if_neg notInvalid, has.createTrxId]
  by_cases own : v = trx
  · simp [own]
  · simp only [own, if_false, Option.any_some, notAborted, Bool.false_eq_true, false_or]
    by_cases above : v ≥ view.lowLimitId
    · have outside : v ∉ snapshotOf trx journal := fun member => by
        have := has.below v member
        omega
      simp [above, outside]
    · by_cases then_active : v ∈ view.activeIds
      · have outside : v ∉ snapshotOf trx journal := fun member => has.notActive v member then_active
        simp [then_active, outside]
      · have inside : v ∈ snapshotOf trx journal := by
          rcases has.ended v positive (by omega) own then_active with inside | aborted
          · exact inside
          · rw [notAborted] at aborted
            cases aborted
        have committed := (inv.committed v).mpr (mem_committedOf_of_snapshotOf inside)
        simp [above, then_active, inside, TransactionManager.isCommitted, committed]

/-- The writes of an aborted transaction are visible to nobody under way. -/
theorem isVisible_of_aborted (inv : ManagerBase m journal) {view : ReadView}
    (active : trx ∈ m.activeTxns) (has : ViewInv m journal trx view) (positive : 1 ≤ v)
    (aborted : m.isAborted v = true) : view.isVisible (some m) v = false := by
  have notInvalid : v ≠ INVALID_TX_ID := by
    simp only [INVALID_TX_ID]
    omega
  have other : v ≠ view.createTrxId := by
    rw [has.createTrxId]
    rintro rfl
    rw [inv.not_aborted_of_active active] at aborted
    cases aborted
  simp [ReadView.isVisible, notInvalid, other, aborted]

/-- Who has been rolled back stays so, whoever ends or begins. -/
theorem isAborted_finish (inv : ManagerBase m journal) (active : trx ∈ m.activeTxns)
    (state : TransactionState) (before : m.isAborted v = true) :
    (m.finish trx state).isAborted v = true := by
  have other : v ≠ trx := by
    rintro rfl
    rw [inv.not_aborted_of_active active] at before
    cases before
  rw [TransactionManager.isAborted, TransactionManager.finish_txnState_of_ne m other]
  exact before

theorem isAborted_beginAllocate (inv : ManagerBase m journal) (before : m.isAborted v = true) :
    m.beginAllocate.2.isAborted v = true := by
  have other : v ≠ m.nextTxid := by
    rintro rfl
    simp [TransactionManager.isAborted, inv.unissued _ le_rfl] at before
  simpa [TransactionManager.isAborted, TransactionManager.beginAllocate, other] using before

/-- Whose writes are under one's own belongs to the snapshot as well. -/
theorem seenBy_trans (inv : ManagerBase m journal) {n w : Nat}
    (sees : seenBy trx journal n = true) (follows : n = w ∨ w ∈ snapshotOf n journal) :
    seenBy trx journal w = true := by
  rcases follows with rfl | under
  · exact sees
  · rw [seenBy_iff] at sees ⊢
    rcases sees with rfl | inside
    · exact .inr under
    · exact .inr (inv.transitive trx n inside w under)

end ManagerBase

/-! ## What commands do to it -/

variable {m m' : TransactionManager} {journal journal' : List Event} {trx : Nat}

theorem ViewInv.mono {view : ReadView} (inv : ViewInv m journal trx view)
    (snapshot : snapshotOf trx journal' = snapshotOf trx journal)
    (aborted : ∀ v, m.isAborted v = true → m'.isAborted v = true) :
    ViewInv m' journal' trx view where
  createTrxId := inv.createTrxId
  below := snapshot ▸ inv.below
  notActive := snapshot ▸ inv.notActive
  upLimit := inv.upLimit
  upLimit_le := inv.upLimit_le
  ended v positive below other outside := by
    rw [snapshot]
    exact (inv.ended v positive below other outside).imp_right (aborted v)

theorem committedOf_snoc (journal : List Event) (event : Event) :
    committedOf (journal ++ [event]) = committedOf journal ++ committedOf [event] := by
  simp [committedOf]

/-- A statement enters writes in write sets and row changes in the journal. -/
theorem ManagerInv.write (inv : ManagerInv m journal) (nextTxid : m'.nextTxid = m.nextTxid)
    (activeTxns : m'.activeTxns = m.activeTxns) (txnState : m'.txnState = m.txnState)
    (transaction : ∀ v, (m'.transaction v).state = (m.transaction v).state ∧
      (m'.transaction v).readView = (m.transaction v).readView)
    (committed : committedOf journal' = committedOf journal)
    (snapshot : ∀ t, snapshotOf t journal' = snapshotOf t journal) : ManagerInv m' journal' := by
  have aborted : ∀ v, m'.isAborted v = m.isAborted v := fun v => by
    rw [TransactionManager.isAborted, txnState, TransactionManager.isAborted]
  refine
    { issued := ?_
      issuedCommitted := ?_
      active := ?_
      committed := ?_
      total := ?_
      next := ?_
      unissued := ?_
      state := ?_
      transitive := ?_
      views := ?_ }
  · rw [activeTxns, nextTxid]
    exact inv.issued
  · rw [committed, nextTxid]
    exact inv.issuedCommitted
  · rw [activeTxns, txnState]
    exact inv.active
  · rw [txnState, committed]
    exact inv.committed
  · intro v positive below
    rw [activeTxns, committed, aborted]
    exact inv.total v positive (nextTxid ▸ below)
  · rw [nextTxid]
    exact inv.next
  · rw [nextTxid, txnState]
    exact inv.unissued
  · intro v member
    rw [(transaction v).1]
    exact inv.state v (activeTxns ▸ member)
  · intro t u member v under
    rw [snapshot] at member under ⊢
    exact inv.transitive t u member v under
  · intro v member
    obtain ⟨view, has, viewInv⟩ := inv.views v (activeTxns ▸ member)
    exact ⟨view, (transaction v).2.trans has, viewInv.mono (snapshot v) fun w => by simp [aborted]⟩

private theorem foldl_min_le (ids : List Nat) (start : Nat) :
    ids.foldl min start ≤ start ∧ ∀ v ∈ ids, ids.foldl min start ≤ v := by
  induction ids generalizing start with
  | nil => simp
  | cons id ids ih =>
      obtain ⟨le, each⟩ := ih (min start id)
      refine ⟨by simp only [List.foldl_cons]; omega, ?_⟩
      intro v member
      rcases List.mem_cons.mp member with rfl | later
      · simp only [List.foldl_cons]
        omega
      · exact each v later

/-- `CreateReadView` for an active transaction. -/
theorem ManagerBase.view (inv : ManagerBase m journal) (active : trx ∈ m.activeTxns)
    (views : ∀ v ∈ m.activeTxns, v ≠ trx → HasView m journal v) :
    ManagerInv (m.setReadView trx (m.createReadView trx)) (journal ++ [.view trx]) := by
  have committed : committedOf (journal ++ [.view trx]) = committedOf journal := by
    rw [committedOf_snoc]
    simp [committedOf]
  have others : ∀ t, t ≠ trx → snapshotOf t (journal ++ [.view trx]) = snapshotOf t journal :=
    fun t ne => snapshotOf_snoc_of_ne (fun same => ne (Event.view.inj same).symm) journal
  have self : snapshotOf trx (journal ++ [.view trx]) = committedOf journal := by
    simp [snapshotOf_snoc]
  refine
    { issued := inv.issued
      issuedCommitted := by
        rw [committed]
        exact inv.issuedCommitted
      active := inv.active
      committed := by
        rw [committed]
        exact inv.committed
      total := by
        rw [committed]
        exact inv.total
      next := inv.next
      unissued := inv.unissued
      state := ?_
      transitive := ?_
      views := ?_ }
  · intro v member
    have state := inv.state v member
    by_cases same : v = trx
    · subst same
      simpa [TransactionManager.setReadView] using state
    · simpa [TransactionManager.setReadView, same] using state
  · intro t u member v under
    have uncommitted := inv.not_committed_of_active active
    by_cases here : t = trx
    · subst here
      rw [self] at member ⊢
      by_cases same : u = t
      · exact absurd (same ▸ member) uncommitted
      · rw [others u same] at under
        exact mem_committedOf_of_snapshotOf under
    · rw [others t here] at member ⊢
      by_cases same : u = trx
      · exact absurd (same ▸ mem_committedOf_of_snapshotOf member) uncommitted
      · rw [others u same] at under
        exact inv.transitive t u member v under
  · intro v member
    by_cases same : v = trx
    · subst same
      refine ⟨m.createReadView v, by simp [TransactionManager.setReadView], ?_⟩
      refine
        { createTrxId := rfl
          below := ?_
          notActive := ?_
          upLimit := ?_
          upLimit_le := ?_
          ended := ?_ }
      · rw [self]
        exact fun w member => (inv.issuedCommitted w member).2
      · rw [self]
        intro w member inside
        rw [TransactionManager.mem_createReadView_activeIds] at inside
        exact inv.not_committed_of_active inside.1 member
      · intro w inside
        exact (foldl_min_le _ _).2 w inside
      · exact (foldl_min_le _ _).1
      · intro w positive below other outside
        rw [self]
        rcases inv.total w positive below with active | ended
        · refine absurd ?_ outside
          rw [TransactionManager.mem_createReadView_activeIds]
          exact ⟨active, other, inv.state w active⟩
        · exact ended
    · obtain ⟨view, has, viewInv⟩ := views v member same
      refine ⟨view, ?_, viewInv.mono (others v same) fun _ aborted => aborted⟩
      simpa [TransactionManager.setReadView, same] using has

/-- `Begin` up to its read view. -/
theorem ManagerInv.beginAllocate (inv : ManagerInv m journal) :
    ManagerBase m.beginAllocate.2 journal ∧
      ∀ v ∈ m.beginAllocate.2.activeTxns, v ≠ m.nextTxid → HasView m.beginAllocate.2 journal v := by
  have fresh : m.nextTxid ∉ committedOf journal := fun member => by
    have := (inv.issuedCommitted _ member).2
    omega
  have aborted : ∀ v, v ≠ m.nextTxid → m.beginAllocate.2.isAborted v = m.isAborted v := by
    intro v other
    simp [TransactionManager.isAborted, TransactionManager.beginAllocate, other]
  have next : m.beginAllocate.2.nextTxid = m.nextTxid + 1 := rfl
  refine
    ⟨{ issued := ?_
       issuedCommitted := ?_
       active := ?_
       committed := ?_
       total := ?_
       next := ?_
       unissued := ?_
       state := ?_
       transitive := inv.transitive }, ?_⟩
  · intro v member
    rcases List.mem_cons.mp member with rfl | earlier
    · exact ⟨inv.next, Nat.lt_succ_self _⟩
    · exact ⟨(inv.issued v earlier).1, Nat.lt_succ_of_lt (inv.issued v earlier).2⟩
  · intro v member
    exact ⟨(inv.issuedCommitted v member).1, Nat.lt_succ_of_lt (inv.issuedCommitted v member).2⟩
  · intro v member
    by_cases same : v = m.nextTxid
    · simp [TransactionManager.beginAllocate, same]
    · have earlier := (List.mem_cons.mp member).resolve_left same
      simpa [TransactionManager.beginAllocate, same] using inv.active v earlier
  · intro v
    by_cases same : v = m.nextTxid
    · subst same
      simp [TransactionManager.beginAllocate, fresh]
    · simpa [TransactionManager.beginAllocate, same] using inv.committed v
  · intro v positive below
    by_cases same : v = m.nextTxid
    · exact .inl (same ▸ List.mem_cons_self ..)
    · rw [aborted v same]
      rcases inv.total v positive (by omega) with active | ended
      · exact .inl (List.mem_cons_of_mem _ active)
      · exact .inr ended
  · rw [next]
    omega
  · intro v above
    have other : v ≠ m.nextTxid := by omega
    simpa [TransactionManager.beginAllocate, other] using inv.unissued v (by omega)
  · intro v member
    by_cases same : v = m.nextTxid
    · simp [TransactionManager.beginAllocate, same]
    · have earlier := (List.mem_cons.mp member).resolve_left same
      simpa [TransactionManager.beginAllocate, same] using inv.state v earlier
  · intro v member other
    obtain ⟨view, has, viewInv⟩ := inv.views v ((List.mem_cons.mp member).resolve_left other)
    refine ⟨view, by simpa [TransactionManager.beginAllocate, other] using has,
      viewInv.mono rfl fun w abortedBefore => ?_⟩
    by_cases same : w = m.nextTxid
    · simp [TransactionManager.isAborted, same, inv.unissued _ le_rfl] at abortedBefore
    · rw [aborted w same]
      exact abortedBefore

/-- `Commit` and `Abort` of an active transaction: its state is final. -/
theorem ManagerInv.finish (inv : ManagerInv m journal) (active : trx ∈ m.activeTxns)
    {state : TransactionState} {event : Event}
    (ends : state = .committed ∧ event = .commit trx ∨ state = .aborted ∧ event = .abort trx) :
    ManagerInv (m.finish trx state) (journal ++ [event]) := by
  have notView : ∀ t, event ≠ .view t := by
    intro t
    rcases ends with ⟨-, rfl⟩ | ⟨-, rfl⟩ <;> simp
  have snapshot : ∀ t, snapshotOf t (journal ++ [event]) = snapshotOf t journal := fun t =>
    snapshotOf_snoc_of_ne (notView t) journal
  have committed : ∀ v, v ∈ committedOf (journal ++ [event]) ↔
      v ∈ committedOf journal ∨ v = trx ∧ state = .committed := by
    intro v
    rcases ends with ⟨rfl, rfl⟩ | ⟨rfl, rfl⟩ <;> simp [mem_committedOf]
  have own := inv.active trx active
  have uncommitted := inv.not_committed_of_active active
  have aborted : ∀ v, m.isAborted v = true → (m.finish trx state).isAborted v = true :=
    fun _ before => inv.isAborted_finish active state before
  refine
    { issued := ?_
      issuedCommitted := ?_
      active := ?_
      committed := ?_
      total := ?_
      next := inv.next
      unissued := ?_
      state := ?_
      transitive := ?_
      views := ?_ }
  · intro v member
    exact inv.issued v (TransactionManager.mem_finish_activeTxns.mp member).1
  · intro v member
    rcases (committed v).mp member with before | ⟨rfl, -⟩
    · exact inv.issuedCommitted v before
    · exact inv.issued v active
  · intro v member
    obtain ⟨before, other⟩ := TransactionManager.mem_finish_activeTxns.mp member
    rw [TransactionManager.finish_txnState_of_ne m other]
    exact inv.active v before
  · intro v
    rw [committed]
    by_cases same : v = trx
    · subst same
      simp [uncommitted]
    · rw [TransactionManager.finish_txnState_of_ne m same, inv.committed]
      simp [same]
  · intro v positive below
    by_cases same : v = trx
    · subst same
      rcases ends with ⟨rfl, rfl⟩ | ⟨rfl, rfl⟩
      · exact .inr (.inl ((committed v).mpr (.inr ⟨rfl, rfl⟩)))
      · exact .inr (.inr (by simp [TransactionManager.isAborted]))
    · rcases inv.total v positive below with stillActive | before | ended
      · exact .inl (TransactionManager.mem_finish_activeTxns.mpr ⟨stillActive, same⟩)
      · exact .inr (.inl ((committed v).mpr (.inl before)))
      · exact .inr (.inr (aborted v ended))
  · intro v above
    have other : v ≠ trx := by
      rintro rfl
      have below := (inv.issued v active).2
      have above : m.nextTxid ≤ v := above
      omega
    rw [TransactionManager.finish_txnState_of_ne m other]
    exact inv.unissued v above
  · intro v member
    obtain ⟨before, other⟩ := TransactionManager.mem_finish_activeTxns.mp member
    rw [TransactionManager.finish_transaction_of_ne m other]
    exact inv.state v before
  · intro t u member v under
    rw [snapshot] at member under ⊢
    exact inv.transitive t u member v under
  · intro v member
    obtain ⟨before, other⟩ := TransactionManager.mem_finish_activeTxns.mp member
    obtain ⟨view, has, viewInv⟩ := inv.views v before
    refine ⟨view, ?_, viewInv.mono (snapshot v) aborted⟩
    rw [TransactionManager.finish_transaction_of_ne m other]
    exact has

end YourSQL.Mvcc
