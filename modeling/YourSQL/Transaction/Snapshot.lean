import YourSQL.Lib.Transition
import YourSQL.Transaction.TransactionManager

/-! # What a read view sees, over every interleaving of clients

Any number of clients call `Begin`, `CreateReadView`, `Commit` and `Abort` on one
manager; their critical sections interleave freely. A read view should answer one
question for ever: did this transaction commit before the view was taken? The
answer comes from the mutable state table, so it can change only when a final
state changes, and `Abort` makes that possible: it looks the transaction up in one
critical section and overwrites its state in another, without a second look.
-/

namespace YourSQL.Snapshot

open TransactionManager Transition

inductive CriticalSection where
  /-- First section of `Begin`. -/
  | beginAllocate
  /-- Second section of `Begin`, and the refresh before a READ COMMITTED statement. -/
  | createReadView (id : Nat)
  | commit (id : Nat)
  /-- First section of `Abort`. -/
  | abortLookup (id : Nat)
  /-- Second section of an `Abort` call that passed its first. -/
  | abortFinish (id : Nat)
  deriving Repr, DecidableEq

/-- The manager, and the ids of the `Abort` calls between their two sections. -/
structure Clients where
  manager : TransactionManager := {}
  aborting : List Nat := []

/-- Execute one critical section. A call that throws leaves the manager as it was. -/
def step (s : Clients) : CriticalSection → Option Clients
  | .beginAllocate => some { s with manager := s.manager.beginAllocate.2 }
  | .createReadView _ => some s
  | .commit id =>
      match s.manager.commitSection id with
      | .ok manager => some { s with manager := manager }
      | .error _ => some s
  | .abortLookup id =>
      match s.manager.abortLookup id with
      | .ok _ => some { s with aborting := id :: s.aborting }
      | .error _ => some s
  | .abortFinish id =>
      if id ∈ s.aborting then
        some { manager := s.manager.abortFinish id, aborting := s.aborting.erase id }
      else
        none

/-- The id was handed out by `Begin`. -/
def Issued (m : TransactionManager) (v : Nat) : Prop := INVALID_TX_ID < v ∧ v < m.nextTxid

/-- The `Commit` critical section of `v` completed during these sections. -/
def Committed (sections : List CriticalSection) (v : Nat) : Prop :=
  ∃ before after s, sections = before ++ .commit v :: after ∧
    run step {} before = some s ∧ v ∈ s.manager.activeTxns

/-- An `Abort` of `v` ran its second section after the `Commit` of `v`. As its
    lookup had to succeed before, the commit fell between its two sections. -/
def AbortOverran (sections : List CriticalSection) (v : Nat) : Prop :=
  ∃ before after, sections = before ++ .abortFinish v :: after ∧ Committed before v

/-- The transaction was ended by a `Commit` or by an `Abort`. -/
def Ended (sections : List CriticalSection) (v : Nat) : Prop :=
  Committed sections v ∨ .abortFinish v ∈ sections

/-- What the state table says, in terms of the sections executed so far. -/
structure Coherent (sections : List CriticalSection) (s : Clients) : Prop where
  issuedPositive : 0 < s.manager.nextTxid
  active : ∀ v ∈ s.manager.activeTxns, Issued s.manager v ∧
    s.manager.txnState v = some .inProgress ∧ (s.manager.transaction v).state = .inProgress
  ended : ∀ v, Ended sections v ↔ Issued s.manager v ∧ v ∉ s.manager.activeTxns
  /-- The last final state to be written wins, and an abort is always the last. -/
  aborted : ∀ v, s.manager.txnState v = some .aborted ↔ .abortFinish v ∈ sections
  committed : ∀ v, Committed sections v → .abortFinish v ∉ sections →
    s.manager.txnState v = some .committed
  overran : ∀ v, Committed sections v → .abortFinish v ∈ sections → AbortOverran sections v
  lookedUp : ∀ v ∈ s.aborting, Issued s.manager v

theorem Committed.extend (more : List CriticalSection) (h : Committed sections v) :
    Committed (sections ++ more) v := by
  obtain ⟨before, after, s, rfl, reached, active⟩ := h
  exact ⟨before, after ++ more, s, by simp, reached, active⟩

theorem AbortOverran.extend (more : List CriticalSection) (h : AbortOverran sections v) :
    AbortOverran (sections ++ more) v := by
  obtain ⟨before, after, rfl, committed⟩ := h
  exact ⟨before, after ++ more, by simp, committed⟩

theorem AbortOverran.abortFinish_mem (h : AbortOverran sections v) :
    .abortFinish v ∈ sections := by
  obtain ⟨before, after, rfl, _⟩ := h
  simp

/-- One more section commits `v` only if it is the commit of an active `v`. -/
theorem committed_snoc {sections : List CriticalSection} {c : CriticalSection} {s : Clients}
    (reached : run step {} sections = some s) :
    Committed (sections ++ [c]) v ↔
      Committed sections v ∨ (c = .commit v ∧ v ∈ s.manager.activeTxns) := by
  constructor
  · rintro ⟨before, after, t, split, reachedT, active⟩
    rcases List.eq_nil_or_concat after with rfl | ⟨init, last, rfl⟩
    · obtain ⟨rfl, same⟩ := List.append_inj' split rfl
      obtain rfl : t = s := Option.some.inj (reachedT.symm.trans reached)
      exact Or.inr ⟨by simpa using same, active⟩
    · rw [List.concat_eq_append, ← List.cons_append, ← List.append_assoc] at split
      obtain ⟨rfl, _⟩ := List.append_inj' split rfl
      exact Or.inl ⟨before, init, t, rfl, reachedT, active⟩
  · rintro (old | ⟨rfl, active⟩)
    · exact old.extend [c]
    · exact ⟨sections, [], s, rfl, reached, active⟩

/-- A section that ends no transaction keeps the history predicates. -/
structure EndsNothing (sections : List CriticalSection) (c : CriticalSection) : Prop where
  committed : ∀ v, Committed (sections ++ [c]) v ↔ Committed sections v
  aborted : ∀ v, .abortFinish v ∈ sections ++ [c] ↔ .abortFinish v ∈ sections

theorem EndsNothing.of_run {sections : List CriticalSection} {c : CriticalSection} {s : Clients}
    (reached : run step {} sections = some s)
    (noCommit : ∀ v, c = .commit v → v ∉ s.manager.activeTxns)
    (noAbort : ∀ v, c ≠ .abortFinish v) : EndsNothing sections c where
  committed := by
    intro v
    rw [committed_snoc reached]
    exact ⟨fun h => h.elim id (fun ⟨e, m⟩ => absurd m (noCommit v e)), Or.inl⟩
  aborted := by
    intro v
    simp [Ne.symm (noAbort v)]

theorem EndsNothing.ended {sections : List CriticalSection} {c : CriticalSection}
    (h : EndsNothing sections c) (v : Nat) : Ended (sections ++ [c]) v ↔ Ended sections v := by
  simp only [Ended, h.committed, h.aborted]

theorem EndsNothing.overran {sections : List CriticalSection} {c : CriticalSection}
    {s : Clients} (h : EndsNothing sections c) (coherent : Coherent sections s) (v : Nat)
    (committed : Committed (sections ++ [c]) v) (aborted : .abortFinish v ∈ sections ++ [c]) :
    AbortOverran (sections ++ [c]) v :=
  (coherent.overran v ((h.committed v).mp committed) ((h.aborted v).mp aborted)).extend _

/-- Sections that leave the manager alone: the snapshot itself, a lookup, and the
    calls that throw. -/
theorem Coherent.unchanged {sections : List CriticalSection} {c : CriticalSection} {s : Clients}
    (h : Coherent sections s) (nothing : EndsNothing sections c)
    (aborting : List Nat) (known : ∀ v ∈ aborting, Issued s.manager v) :
    Coherent (sections ++ [c]) { s with aborting := aborting } where
  issuedPositive := h.issuedPositive
  active := h.active
  ended := by simpa only [nothing.ended] using h.ended
  aborted := by simpa only [nothing.aborted] using h.aborted
  committed := by simpa only [nothing.committed, nothing.aborted] using h.committed
  overran := nothing.overran h
  lookedUp := known

theorem Coherent.begin {sections : List CriticalSection} {s : Clients}
    (h : Coherent sections s) (nothing : EndsNothing sections .beginAllocate) :
    Coherent (sections ++ [.beginAllocate]) { s with manager := s.manager.beginAllocate.2 } := by
  have old : ∀ v, Issued s.manager v → v ≠ s.manager.nextTxid := by
    intro v issued
    have := issued.2
    omega
  have grown : ∀ v, Issued s.manager.beginAllocate.2 v ↔
      Issued s.manager v ∨ v = s.manager.nextTxid := by
    intro v
    have positive := h.issuedPositive
    simp only [Issued, beginAllocate, INVALID_TX_ID]
    omega
  refine
    { issuedPositive := Nat.succ_pos _
      active := ?_
      ended := ?_
      aborted := ?_
      committed := ?_
      overran := nothing.overran h
      lookedUp := fun v member => (grown v).mpr (Or.inl (h.lookedUp v member)) }
  · intro v member
    rcases List.mem_cons.mp member with rfl | member
    · exact ⟨(grown _).mpr (Or.inr rfl), by simp [beginAllocate], by simp [beginAllocate]⟩
    · obtain ⟨issued, state, object⟩ := h.active v member
      have distinct := old v issued
      exact ⟨(grown v).mpr (Or.inl issued), by simpa [beginAllocate, distinct] using state,
        by simpa [beginAllocate, distinct] using object⟩
  · intro v
    rw [nothing.ended, h.ended, grown]
    simp only [beginAllocate, List.mem_cons, not_or]
    constructor
    · rintro ⟨issued, inactive⟩
      exact ⟨Or.inl issued, old v issued, inactive⟩
    · rintro ⟨issued | e, distinct, inactive⟩
      · exact ⟨issued, inactive⟩
      · exact absurd e distinct
  · intro v
    rw [nothing.aborted, ← h.aborted]
    by_cases e : v = s.manager.nextTxid
    · -- the fresh id cannot have a final state yet
      have unissued : s.manager.txnState v ≠ some .aborted := fun a =>
        old v ((h.ended v).mp (Or.inr ((h.aborted v).mp a))).1 e
      simp [beginAllocate, e, e ▸ unissued]
    · simp [beginAllocate, e]
  · intro v committed aborted
    rw [nothing.committed] at committed
    rw [nothing.aborted] at aborted
    have distinct := old v ((h.ended v).mp (Or.inl committed)).1
    simpa [beginAllocate, distinct] using h.committed v committed aborted

/-- The parts of the invariant that the two final states have in common. -/
theorem Coherent.active_finish {sections : List CriticalSection} {s : Clients}
    (h : Coherent sections s) (id : Nat) (state : TransactionState) :
    ∀ v ∈ (s.manager.finish id state).activeTxns, Issued (s.manager.finish id state) v ∧
      (s.manager.finish id state).txnState v = some .inProgress ∧
      ((s.manager.finish id state).transaction v).state = .inProgress := by
  intro v member
  obtain ⟨member, other⟩ := mem_finish_activeTxns.mp member
  rw [finish_txnState_of_ne _ other, finish_transaction_of_ne _ other]
  exact h.active v member

theorem Coherent.commit {sections : List CriticalSection} {s : Clients} {id : Nat}
    (reached : run step {} sections = some s) (h : Coherent sections s)
    (active : id ∈ s.manager.activeTxns) :
    Coherent (sections ++ [.commit id]) { s with manager := s.manager.finish id .committed } := by
  have committedNow : ∀ v, Committed (sections ++ [.commit id]) v ↔
      Committed sections v ∨ v = id := by
    intro v
    rw [committed_snoc reached, CriticalSection.commit.injEq, eq_comm (a := id)]
    exact or_congr_right ⟨And.left, fun e => ⟨e, e ▸ active⟩⟩
  have abortedNow : ∀ v, .abortFinish v ∈ sections ++ [.commit id] ↔
      .abortFinish v ∈ sections := by simp
  have notEnded : ¬ Ended sections id := fun ended => ((h.ended id).mp ended).2 active
  refine
    { issuedPositive := h.issuedPositive
      active := h.active_finish id .committed
      ended := ?_
      aborted := ?_
      committed := ?_
      overran := ?_
      lookedUp := h.lookedUp }
  · intro v
    have before := h.ended v
    simp only [Ended, committedNow, abortedNow] at before ⊢
    by_cases e : v = id
    · subst e
      simp [Issued, (h.active v active).1.1, (h.active v active).1.2]
    · simpa [e, Issued] using before
  · intro v
    rw [abortedNow, ← h.aborted]
    by_cases e : v = id
    · subst e
      have unfinished := (h.active v active).2.1
      simp [unfinished]
    · rw [finish_txnState_of_ne _ e]
  · intro v committed aborted
    rw [abortedNow] at aborted
    by_cases e : v = id
    · subst e
      simp
    · rw [finish_txnState_of_ne _ e]
      exact h.committed v (((committedNow v).mp committed).resolve_right e) aborted
  · intro v committed aborted
    rw [abortedNow] at aborted
    rcases (committedNow v).mp committed with old | rfl
    · exact (h.overran v old aborted).extend _
    · exact absurd (Or.inr aborted) notEnded

theorem Coherent.abortFinish {sections : List CriticalSection} {s : Clients} {id : Nat}
    (reached : run step {} sections = some s) (h : Coherent sections s)
    (inFlight : id ∈ s.aborting) :
    Coherent (sections ++ [.abortFinish id])
      { manager := s.manager.abortFinish id, aborting := s.aborting.erase id } := by
  have committedNow : ∀ v, Committed (sections ++ [.abortFinish id]) v ↔ Committed sections v := by
    intro v
    simp [committed_snoc reached]
  have abortedNow : ∀ v, .abortFinish v ∈ sections ++ [.abortFinish id] ↔
      .abortFinish v ∈ sections ∨ v = id := by simp
  refine
    { issuedPositive := h.issuedPositive
      active := h.active_finish id .aborted
      ended := ?_
      aborted := ?_
      committed := ?_
      overran := ?_
      lookedUp := fun v member => h.lookedUp v (List.mem_of_mem_erase member) }
  · intro v
    have before := h.ended v
    simp only [Ended, committedNow, abortedNow] at before ⊢
    by_cases e : v = id
    · subst e
      have issued := h.lookedUp v inFlight
      simp [TransactionManager.abortFinish, Issued, issued.1, issued.2]
    · simpa [e, TransactionManager.abortFinish, Issued] using before
  · intro v
    rw [abortedNow, ← h.aborted]
    by_cases e : v = id
    · subst e
      simp [TransactionManager.abortFinish]
    · simp [TransactionManager.abortFinish, finish_txnState_of_ne _ e, e]
  · intro v committed aborted
    rw [committedNow] at committed
    rw [abortedNow, not_or] at aborted
    simpa [TransactionManager.abortFinish, finish_txnState_of_ne _ aborted.2]
      using h.committed v committed aborted.1
  · intro v committed aborted
    rw [committedNow] at committed
    rcases (abortedNow v).mp aborted with old | rfl
    · exact (h.overran v committed old).extend _
    · exact ⟨sections, [], rfl, committed⟩

theorem coherent_run : ∀ sections s, run step {} sections = some s → Coherent sections s := by
  apply traceInvariant
  · refine ⟨Nat.one_pos, by simp, ?_, by simp, ?_, ?_, by simp⟩
    · intro v
      simp only [Ended, Committed, Issued, INVALID_TX_ID]
      constructor
      · rintro (⟨before, after, s, split, _⟩ | member)
        · simp at split
        · simp at member
      · rintro ⟨⟨positive, below⟩, _⟩
        omega
    · rintro v ⟨before, after, s, split, _⟩
      simp at split
    · rintro v _ member
      simp at member
  · intro done t c u reached h taken
    cases c with
    | beginAllocate =>
        obtain rfl := Option.some.inj taken
        exact h.begin (.of_run reached (by simp) (by simp))
    | createReadView id =>
        obtain rfl := Option.some.inj taken
        exact h.unchanged (.of_run reached (by simp) (by simp)) _ h.lookedUp
    | commit id =>
        by_cases active : id ∈ t.manager.activeTxns
        · simp only [step, commitSection, if_pos active, Option.some.injEq] at taken
          subst taken
          exact h.commit reached active
        · simp only [step, commitSection, if_neg active, Option.some.injEq] at taken
          subst taken
          refine h.unchanged (.of_run reached ?_ (by simp)) _ h.lookedUp
          rintro v ⟨⟩
          exact active
    | abortLookup id =>
        have nothing : EndsNothing done (.abortLookup id) := .of_run reached (by simp) (by simp)
        by_cases active : id ∈ t.manager.activeTxns
        · simp only [step, abortLookup, if_pos active, Option.some.injEq] at taken
          subst taken
          refine h.unchanged nothing _ ?_
          intro v member
          rcases List.mem_cons.mp member with rfl | member
          · exact (h.active v active).1
          · exact h.lookedUp v member
        · simp only [step, abortLookup, if_neg active, Option.some.injEq] at taken
          subst taken
          exact h.unchanged nothing _ h.lookedUp
    | abortFinish id =>
        simp only [step, Option.ite_none_right_eq_some, Option.some.injEq] at taken
        obtain ⟨inFlight, rfl⟩ := taken
        exact h.abortFinish reached inFlight

/-- The branches of `IsVisible` for a version written by another transaction. -/
theorem isVisible_other {view : ReadView} {m : TransactionManager} {v : Nat}
    (known : v ≠ INVALID_TX_ID) (other : v ≠ view.createTrxId) :
    view.isVisible (some m) v = true ↔
      m.txnState v ≠ some .aborted ∧ v < view.lowLimitId ∧ v ∉ view.activeIds ∧
        (v < view.upLimitId ∨ m.txnState v = some .committed) := by
  by_cases aborted : m.txnState v = some .aborted
  · simp [ReadView.isVisible, known, other, isAborted, aborted]
  · by_cases later : view.lowLimitId ≤ v
    · simp [ReadView.isVisible, known, other, isAborted, aborted, later]
    · by_cases active : v ∈ view.activeIds
      · simp [ReadView.isVisible, known, other, isAborted, aborted, later, active]
      · by_cases below : v < view.upLimitId
        · simp [ReadView.isVisible, known, other, isAborted, aborted, later, active, below]
          omega
        · simp [ReadView.isVisible, known, other, isAborted, isCommitted, aborted, later, active,
            below]
          omega

section Query

variable {before after : List CriticalSection} {T v : Nat} {taken now : Clients}

/-- While no abort has overwritten its state, a transaction is visible exactly
    when it had committed before the view was taken. -/
theorem visible_iff_of_not_aborted
    (created : run step {} before = some taken)
    (reached : run step {} (before ++ .createReadView T :: after) = some now)
    (issued : Issued now.manager v) (other : v ≠ T)
    (unaborted : .abortFinish v ∉ before ++ .createReadView T :: after) :
    (taken.manager.createReadView T).isVisible (some now.manager) v = true ↔
      Committed before v := by
  have atView := coherent_run before taken created
  have atQuery := coherent_run _ now reached
  have known : v ≠ INVALID_TX_ID := Nat.ne_of_gt issued.1
  rw [isVisible_other known other]
  simp only [createReadView_lowLimitId, mem_createReadView_activeIds]
  constructor
  · rintro ⟨_, below, inactive, _⟩
    have dropped : v ∉ taken.manager.activeTxns := fun member =>
      inactive ⟨member, other, (atView.active v member).2.2⟩
    rcases (atView.ended v).mpr ⟨⟨issued.1, below⟩, dropped⟩ with committed | aborted
    · exact committed
    · exact absurd (List.mem_append_left _ aborted) unaborted
  · intro committed
    obtain ⟨issuedThen, dropped⟩ := (atView.ended v).mp (Or.inl committed)
    have state := atQuery.committed v (committed.extend _) unaborted
    exact ⟨by simp [state], issuedThen.2, fun member => dropped member.1, Or.inr state⟩

/-- At every later moment a read view answers "did `v` commit before this view was
    taken (or is it the owner)?" unless an `Abort` of `v` that was already past its
    lookup overwrote the state of a transaction committed before the view. -/
theorem isVisible_committedBefore_iff
    (created : run step {} before = some taken)
    (reached : run step {} (before ++ .createReadView T :: after) = some now)
    (issued : Issued now.manager v) :
    ((taken.manager.createReadView T).isVisible (some now.manager) v = true ↔
        v = T ∨ Committed before v) ↔
      ¬ (v ≠ T ∧ Committed before v ∧ AbortOverran (before ++ .createReadView T :: after) v) := by
  have atQuery := coherent_run _ now reached
  have known : v ≠ INVALID_TX_ID := Nat.ne_of_gt issued.1
  by_cases own : v = T
  · simp [own, ReadView.isVisible]
  · by_cases aborted : .abortFinish v ∈ before ++ .createReadView T :: after
    · have hidden : ¬ (taken.manager.createReadView T).isVisible (some now.manager) v = true := by
        rw [isVisible_other known own]
        exact fun visible => visible.1 ((atQuery.aborted v).mpr aborted)
      have overran : Committed before v →
          AbortOverran (before ++ .createReadView T :: after) v := fun committed =>
        atQuery.overran v (committed.extend _) aborted
      simp only [hidden, own, ne_eq, not_false_eq_true, true_and, false_or]
      constructor
      · rintro answer ⟨committed, _⟩
        exact Bool.noConfusion (answer.mpr committed)
      · intro clean
        exact ⟨Bool.noConfusion, fun committed => absurd ⟨committed, overran committed⟩ clean⟩
    · have clean : ¬ AbortOverran (before ++ .createReadView T :: after) v :=
        fun overran => aborted overran.abortFinish_mem
      simp [own, clean, visible_iff_of_not_aborted created reached issued own aborted]

end Query

/-- A schedule without the race: 1 commits, 2 takes its view, 1 stays visible. -/
theorem isVisible_committedBefore_quiet :
    ∃ taken now : Clients,
      ((taken.manager.createReadView 2).isVisible (some now.manager) 1 = true ↔
          (1 : Nat) = 2 ∨ Committed [.beginAllocate, .commit 1, .beginAllocate] 1) ↔
        ¬ ((1 : Nat) ≠ 2 ∧ Committed [.beginAllocate, .commit 1, .beginAllocate] 1 ∧
          AbortOverran ([.beginAllocate, .commit 1, .beginAllocate] ++
            .createReadView 2 :: [.commit 2]) 1) :=
  ⟨_, _, @isVisible_committedBefore_iff [.beginAllocate, .commit 1, .beginAllocate] [.commit 2]
    2 1 _ _ rfl rfl (by unfold Issued INVALID_TX_ID; decide)⟩

/-- The race: an abort of 1 looks 1 up, 1 commits, 2 takes its view, and then the
    abort finishes. 1 committed before the view and is hidden from it all the same. -/
theorem isVisible_flips_after_overrun :
    ∃ taken early now : Clients,
      run step {} [.beginAllocate, .beginAllocate, .abortLookup 1, .commit 1] = some taken ∧
      run step {} [.beginAllocate, .beginAllocate, .abortLookup 1, .commit 1,
        .createReadView 2] = some early ∧
      run step {} [.beginAllocate, .beginAllocate, .abortLookup 1, .commit 1,
        .createReadView 2, .abortFinish 1] = some now ∧
      Committed [.beginAllocate, .beginAllocate, .abortLookup 1, .commit 1] 1 ∧
      (taken.manager.createReadView 2).isVisible (some early.manager) 1 = true ∧
      (taken.manager.createReadView 2).isVisible (some now.manager) 1 = false := by
  refine ⟨_, _, _, rfl, rfl, rfl, ?_, by decide, by decide⟩
  exact ⟨[.beginAllocate, .beginAllocate, .abortLookup 1], [], _, rfl, rfl, by decide⟩

end YourSQL.Snapshot
