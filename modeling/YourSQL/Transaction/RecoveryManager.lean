import YourSQL.Log.LogRecord
import YourSQL.Transaction.TransactionManager

/-! # What recovery makes of the log

`Analysis` goes over the records once and keeps one state for each transaction: the last
COMMIT or ABORT record decides, and a transaction that has neither counts as aborted.
-/

namespace YourSQL.RecoveryManager

/-- One round of the loop. A record of any other type is passed over. -/
def markState (states : Nat → Option TransactionState) (log : LogRecord) :
    Nat → Option TransactionState :=
  let txId := log.txId.toNat
  match log.type with
  | .commit => Function.update states txId (some .committed)
  | .abort => Function.update states txId (some .aborted)
  | .insertRow | .deleteRow | .updateRow | .begin =>
      if states txId = none then
        Function.update states txId (some .inProgress)
      else
        states
  | _ => states

def states (logs : List LogRecord) : Nat → Option TransactionState :=
  logs.foldl markState fun _ => none

def maxTxid (logs : List LogRecord) : Nat :=
  logs.foldl (fun maxTxid log => if log.txId.toNat > maxTxid then log.txId.toNat else maxTxid) 0

/-- `AdvanceNextTxId`. -/
def advanceNextTxId (m : TransactionManager) (atLeast : Nat) : TransactionManager :=
  if atLeast + 1 > m.nextTxid then { m with nextTxid := atLeast + 1 } else m

/-- `SetTxnState` for each transaction of the map. -/
def setTxnStates (m : TransactionManager) (states : Nat → Option TransactionState) :
    TransactionManager :=
  { m with
    txnState := fun txid =>
      if txid = INVALID_TX_ID then
        m.txnState txid
      else
        match states txid with
        | none => m.txnState txid
        | some .committed => some .committed
        | some _ => some .aborted }

def analysis (logs : List LogRecord) (m : TransactionManager) : TransactionManager :=
  advanceNextTxId (setTxnStates m (states logs)) (maxTxid logs)

/-! ## What the records of one transaction say -/

variable {logs : List LogRecord} {log : LogRecord} {txid : Nat}

/-- The types that enter a transaction in the map. -/
def Marks (type : LogRecordType) : Prop :=
  type = .commit ∨ type = .abort ∨ type = .insertRow ∨ type = .deleteRow ∨ type = .updateRow ∨
    type = .begin

theorem states_snoc (logs : List LogRecord) (log : LogRecord) :
    states (logs ++ [log]) = markState (states logs) log := List.foldl_concat ..

/-- A record says nothing of other transactions. -/
theorem markState_of_ne (states : Nat → Option TransactionState) (other : txid ≠ log.txId.toNat) :
    markState states log txid = states txid := by
  cases type : log.type with
  | commit => simp [markState, type, other]
  | abort => simp [markState, type, other]
  | insertRow | deleteRow | updateRow | begin =>
      simp only [markState, type]
      split
      · rw [Function.update_of_ne other]
      · rfl
  | insertUndo | pageNew | checkpoint => simp [markState, type]
  | unnamed code above => simp [markState, type]

/-- A record that ends no transaction enters one at most, as being in progress. -/
theorem markState_of_open (states : Nat → Option TransactionState) (notCommit : log.type ≠ .commit)
    (notAbort : log.type ≠ .abort) :
    markState states log txid = states txid ∨
      states txid = none ∧ markState states log txid = some .inProgress := by
  by_cases own : txid = log.txId.toNat
  · cases type : log.type with
    | commit => exact absurd type notCommit
    | abort => exact absurd type notAbort
    | insertRow | deleteRow | updateRow | begin =>
        by_cases absent : states txid = none
        · exact .inr ⟨absent, by simp [markState, type, ← own, absent]⟩
        · exact .inl (by simp [markState, type, ← own, absent])
    | insertUndo | pageNew | checkpoint => exact .inl (by simp [markState, type])
    | unnamed code above => exact .inl (by simp [markState, type])
  · exact .inl (markState_of_ne states own)

theorem states_eq_committed (committed : ∃ log ∈ logs, log.type = .commit ∧ log.txId.toNat = txid)
    (kept : ∀ log ∈ logs, log.type = .abort → log.txId.toNat ≠ txid) :
    states logs txid = some .committed := by
  induction logs using List.reverseRecOn with
  | nil => simp at committed
  | append_singleton logs last ih =>
      have keptBefore : ∀ log ∈ logs, log.type = .abort → log.txId.toNat ≠ txid :=
        fun log member => kept log (List.mem_append_left _ member)
      rw [states_snoc]
      by_cases final : last.type = .commit ∧ last.txId.toNat = txid
      · simp [markState, final]
      · obtain ⟨log, member, found⟩ := committed
        have earlier : log ∈ logs := by
          rcases List.mem_append.mp member with old | new
          · exact old
          · rw [List.mem_singleton.mp new] at found
            exact absurd found final
        have before := ih ⟨log, earlier, found⟩ keptBefore
        by_cases own : txid = last.txId.toNat
        · have notCommit : last.type ≠ .commit := fun commit => final ⟨commit, own.symm⟩
          have notAbort : last.type ≠ .abort := fun abort => kept last (by simp) abort own.symm
          rcases markState_of_open (states logs) notCommit notAbort with same | ⟨absent, -⟩
          · rw [same, before]
          · rw [before] at absent
            cases absent
        · rw [markState_of_ne _ own, before]

theorem exists_commit_of_states (marked : states logs txid = some .committed) :
    ∃ log ∈ logs, log.type = .commit ∧ log.txId.toNat = txid := by
  induction logs using List.reverseRecOn with
  | nil => simp [states] at marked
  | append_singleton logs last ih =>
      rw [states_snoc] at marked
      by_cases final : last.type = .commit ∧ last.txId.toNat = txid
      · exact ⟨last, by simp, final⟩
      · have before : states logs txid = some .committed := by
          by_cases own : txid = last.txId.toNat
          · have notCommit : last.type ≠ .commit := fun commit => final ⟨commit, own.symm⟩
            by_cases abort : last.type = .abort
            · simp [markState, abort, own] at marked
            · rcases @markState_of_open last txid (states logs) notCommit abort with
                same | ⟨-, open_⟩
              · rw [← same, marked]
              · rw [marked] at open_
                cases open_
          · rwa [markState_of_ne _ own] at marked
        obtain ⟨log, member, found⟩ := ih before
        exact ⟨log, List.mem_append_left _ member, found⟩

/-- A record of a type that counts enters its transaction, and no record takes one out. -/
theorem states_ne_none (entered : ∃ log ∈ logs, Marks log.type ∧ log.txId.toNat = txid) :
    states logs txid ≠ none := by
  induction logs using List.reverseRecOn with
  | nil => simp at entered
  | append_singleton logs last ih =>
      rw [states_snoc]
      obtain ⟨log, member, marks, same⟩ := entered
      rcases List.mem_append.mp member with old | new
      · have before := ih ⟨log, old, marks, same⟩
        by_cases own : txid = last.txId.toNat
        · cases type : last.type with
          | commit => simp [markState, type, own]
          | abort => simp [markState, type, own]
          | _ =>
              rcases @markState_of_open last txid (states logs) (by simp [type]) (by simp [type])
                with kept | ⟨-, entered⟩
              · rwa [kept]
              · simp [entered]
        · rwa [markState_of_ne _ own]
      · obtain rfl := List.mem_singleton.mp new
        subst same
        by_cases absent : states logs log.txId.toNat = none
        · rcases marks with type | type | type | type | type | type <;>
            simp [markState, type, absent]
        · rcases marks with type | type | type | type | type | type <;>
            simp [markState, type, absent]

theorem analysis_txnState (logs : List LogRecord) (m : TransactionManager) (txid : Nat) :
    (analysis logs m).txnState txid = (setTxnStates m (states logs)).txnState txid := by
  unfold analysis advanceNextTxId
  split <;> rfl

theorem txnState_analysis_of_states {m : TransactionManager} (issued : txid ≠ INVALID_TX_ID)
    {state : TransactionState} (marked : states logs txid = some state) :
    (analysis logs m).txnState txid =
      some (if state = .committed then .committed else .aborted) := by
  rw [analysis_txnState]
  cases state <;> simp [setTxnStates, issued, marked]

theorem le_maxTxid (member : log ∈ logs) : log.txId.toNat ≤ maxTxid logs := by
  induction logs using List.reverseRecOn with
  | nil => cases member
  | append_singleton logs last ih =>
      have step : maxTxid (logs ++ [last]) =
          if last.txId.toNat > maxTxid logs then last.txId.toNat else maxTxid logs :=
        List.foldl_concat ..
      rw [step]
      rcases List.mem_append.mp member with old | new
      · have := ih old
        split <;> omega
      · rw [List.mem_singleton.mp new]
        split <;> omega

/-- No id of the log is issued again. -/
theorem lt_nextTxid_analysis (m : TransactionManager) (member : log ∈ logs) :
    log.txId.toNat < (analysis logs m).nextTxid := by
  have := le_maxTxid member
  unfold analysis advanceNextTxId
  split
  · simp only
    omega
  · omega

end YourSQL.RecoveryManager
