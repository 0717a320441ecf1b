import YourSQL.Common.Types
import Mathlib.Logic.Function.Basic

/-! # Transactions, read views and the transaction manager

`TransactionManager` keeps the state table of all transactions and the set of
active ones. Its public calls are sequences of lock-protected critical sections;
each section is a function of its own here, so that `Begin` and `Abort`, which
release the lock in the middle, can be interleaved with other clients.
-/

namespace YourSQL

inductive TransactionState where
  | committed
  | aborted
  | inProgress
  | active
  deriving Repr, DecidableEq

/-- The kinds of write a transaction records for its rollback. -/
inductive WriteType where
  | insert
  | delete
  | updateDeleteOld
  | updateInsertNew
  deriving Repr, DecidableEq

/-- One entry of a transaction's write set: where it wrote, and the record
    header that the write replaced. -/
structure WriteRecord where
  rid : RID
  type : WriteType
  tableId : Nat
  prevTrxId : Nat := INVALID_TX_ID
  prevRollPtr : UndoPointer := .null
  prevFlags : Flags := 0
  deriving Repr, DecidableEq

structure ReadView where
  createTrxId : Nat
  /-- Low watermark: the smallest active id, or the high watermark. -/
  upLimitId : Nat
  /-- High watermark: the next id to be issued. -/
  lowLimitId : Nat
  activeIds : List Nat
  deriving Repr, DecidableEq

structure Transaction where
  txId : Nat := INVALID_TX_ID
  state : TransactionState := .inProgress
  readView : Option ReadView := none
  writeSet : List WriteRecord := []
  deriving Repr, DecidableEq

/-- `activeTxns` holds the keys of the map of active transactions; the
    `Transaction` objects its values point to are in `transaction`, since clients
    keep using an object after the manager has dropped its key. -/
structure TransactionManager where
  nextTxid : Nat := 1
  activeTxns : List Nat := []
  txnState : Nat → Option TransactionState := fun _ => none
  transaction : Nat → Transaction := fun _ => {}

namespace TransactionManager

def getState (m : TransactionManager) (id : Nat) : Option TransactionState := m.txnState id

def isCommitted (m : TransactionManager) (id : Nat) : Bool :=
  m.txnState id == some .committed

def isAborted (m : TransactionManager) (id : Nat) : Bool :=
  m.txnState id == some .aborted

/-- Enter a final state: the shared tail of `Commit` and `Abort`. -/
def finish (m : TransactionManager) (id : Nat) (state : TransactionState) : TransactionManager :=
  { m with
    activeTxns := m.activeTxns.filter (· != id)
    txnState := Function.update m.txnState id (some state)
    transaction := Function.update m.transaction id { m.transaction id with state := state } }

/-- First critical section of `Begin`: take an id and register the transaction. -/
def beginAllocate (m : TransactionManager) : Nat × TransactionManager :=
  let id := m.nextTxid
  (id,
    { nextTxid := id + 1
      activeTxns := id :: m.activeTxns
      txnState := Function.update m.txnState id (some .inProgress)
      transaction := Function.update m.transaction id { txId := id, state := .inProgress } })

/-- `CreateReadView`, the second critical section of `Begin`. -/
def createReadView (m : TransactionManager) (id : Nat) : ReadView :=
  let activeIds := m.activeTxns.filter
    (fun activeId => activeId != id && (m.transaction activeId).state == .inProgress)
  { createTrxId := id
    lowLimitId := m.nextTxid
    upLimitId := activeIds.foldl min m.nextTxid
    activeIds := activeIds }

/-- The critical section of `Commit`. -/
def commitSection (m : TransactionManager) (id : Nat) : Except String TransactionManager :=
  if id ∈ m.activeTxns then
    .ok (m.finish id .committed)
  else
    .error s!"TransactionManager::Commit transaction not found: {id}"

/-- First critical section of `Abort`: only the lookup happens under the lock. -/
def abortLookup (m : TransactionManager) (id : Nat) : Except String Unit :=
  if id ∈ m.activeTxns then
    .ok ()
  else
    .error s!"TransactionManager::Abort transaction not found: {id}"

/-- Second critical section of `Abort`. It does not look the transaction up again. -/
def abortFinish (m : TransactionManager) (id : Nat) : TransactionManager :=
  m.finish id .aborted

def setReadView (m : TransactionManager) (id : Nat) (view : ReadView) : TransactionManager :=
  { m with
    transaction := Function.update m.transaction id
      { m.transaction id with readView := some view } }

/-- `write_set_.push_back` on the transaction object. -/
def pushWrite (m : TransactionManager) (id : Nat) (wr : WriteRecord) : TransactionManager :=
  { m with
    transaction := Function.update m.transaction id
      { m.transaction id with writeSet := (m.transaction id).writeSet ++ [wr] } }

/-- Where there is no transaction, there is no write set. -/
def pushWriteFor (m : TransactionManager) (txn : Option Nat) (wr : WriteRecord) :
    TransactionManager :=
  match txn with
  | none => m
  | some id => m.pushWrite id wr

end TransactionManager

/-- `ReadView::IsVisible`, branch for branch. The manager is the one the view
    points to, in its state at the time of the query. -/
def ReadView.isVisible (view : ReadView) (txnManager : Option TransactionManager)
    (versionTrxId : Nat) : Bool :=
  if versionTrxId = INVALID_TX_ID then
    true
  else if versionTrxId = view.createTrxId then
    true
  else if txnManager.any (·.isAborted versionTrxId) then
    false
  else if versionTrxId ≥ view.lowLimitId then
    false
  else if versionTrxId ∈ view.activeIds then
    false
  else if versionTrxId < view.upLimitId then
    if txnManager.any (·.isAborted versionTrxId) then false else true
  else
    match txnManager with
    | some m => m.isCommitted versionTrxId
    | none => true

namespace TransactionManager

@[simp] theorem mem_finish_activeTxns {m : TransactionManager} {id v : Nat}
    {state : TransactionState} :
    v ∈ (m.finish id state).activeTxns ↔ v ∈ m.activeTxns ∧ v ≠ id := by
  simp [finish]

@[simp] theorem finish_nextTxid (m : TransactionManager) (id : Nat) (state : TransactionState) :
    (m.finish id state).nextTxid = m.nextTxid := rfl

@[simp] theorem finish_txnState_self (m : TransactionManager) (id : Nat)
    (state : TransactionState) : (m.finish id state).txnState id = some state := by
  simp [finish]

theorem finish_txnState_of_ne (m : TransactionManager) {id v : Nat} (other : v ≠ id)
    (state : TransactionState) : (m.finish id state).txnState v = m.txnState v := by
  simp [finish, other]

theorem finish_transaction_of_ne (m : TransactionManager) {id v : Nat} (other : v ≠ id)
    (state : TransactionState) : (m.finish id state).transaction v = m.transaction v := by
  simp [finish, other]

@[simp] theorem createReadView_createTrxId (m : TransactionManager) (id : Nat) :
    (m.createReadView id).createTrxId = id := rfl

@[simp] theorem createReadView_lowLimitId (m : TransactionManager) (id : Nat) :
    (m.createReadView id).lowLimitId = m.nextTxid := rfl

@[simp] theorem mem_createReadView_activeIds {m : TransactionManager} {id v : Nat} :
    v ∈ (m.createReadView id).activeIds ↔
      v ∈ m.activeTxns ∧ v ≠ id ∧ (m.transaction v).state = .inProgress := by
  simp [createReadView]

end TransactionManager

end YourSQL
