import YourSQL.Executor.RowUpdates
import YourSQL.Mvcc.Histories

/-! # The heap of a table

A table's pages are chained from its first to its last one, and records only come to the
end. So an iterator meets them in the order in which they came, whatever failed on the way
and however many pages have stayed empty.
-/

namespace YourSQL

variable {s s' : Database} {pages : Nat → List Nat} {tableOf : Nat → Nat} {t : Nat}

namespace TableIterator

/-- All that an iterator meets up to its end. -/
def collectRound (it : TableIterator) (met : List (RID × Option Record)) :
    Exec (TableIterator × List (RID × Option Record)) := do
  let record ← it.current
  return (← it.advance, met ++ [(it.rid, record)])

def collect (tableId : Nat) : Exec (List (RID × Option Record)) := do
  let it ← create tableId
  it.whileNotEnd collectRound (← get).slotCount []

/-- On the way, with the records that have been met. -/
structure Collecting (s : Database) (pages : Nat → List Nat) (tableOf : Nat → Nat) (t : Nat)
    (it : TableIterator) (left : List RID) (met : List (RID × Option Record)) (u : Database) :
    Prop where
  sound : u.Sound pages tableOf
  pool : s.PoolOnly u
  swaps : s.Swaps [] u it.held
  met : met ++ left.map (fun rid => (rid, s.tupleAt rid)) =
    (s.order pages t).map fun rid => (rid, s.tupleAt rid)

theorem wp_collectRound {it : TableIterator} {rid : RID} {rest : List RID}
    {met : List (RID × Option Record)} {u : Database}
    (stands : it.Stands u pages tableOf t (rid :: rest))
    (collecting : Collecting s pages tableOf t it (rid :: rest) met u) :
    (collectRound it met).wp (fun next u' => next.1.Stands u' pages tableOf t rest ∧
      Collecting s pages tableOf t next.1 rest next.2 u') (fun _ _ => False) u := by
  obtain ⟨record, current, stored⟩ := stands.run_current collecting.sound
  obtain ⟨it', u', advanced, stands', pool, sound', swaps⟩ :=
    stands.run_advance collecting.sound
  obtain ⟨-, -, -, -, -, here, -⟩ := stands.cons_inv
  have found : s.tupleAt rid = some record := by
    rw [collecting.pool.versions] at stored
    exact Database.tupleAt_of_slot stored
  unfold collectRound
  rw [Program.wp_bind, Program.wp_of_ok current, Program.wp_bind, Program.wp_of_ok advanced,
    Program.wp_pure]
  refine ⟨stands', sound', collecting.pool.trans pool, collecting.swaps.trans swaps, ?_⟩
  rw [← collecting.met, List.map_cons, found, ← here, List.append_assoc]
  rfl

theorem run_collect (sound : s.Sound pages tableOf) {item : MetaItem}
    (entry : s.items t = some item) :
    ∃ s', (collect t).run s =
        (.ok ((s.order pages t).map fun rid => (rid, s.tupleAt rid)), s') ∧
      s.PoolOnly s' ∧ s'.pins = s.pins := by
  obtain ⟨it, s₁, created, stands, pool, sound₁, swaps⟩ := run_create sound entry
  have enough : (s.addresses (pages t)).length ≤ s₁.slotCount := by
    rw [← Database.addresses_congr pool.rowCount]
    exact (sound₁.bounds t).2
  have looped := @wp_loop _ pages tableOf t _ _ (Collecting s pages tableOf t) (fun _ _ => False)
    (fun it rid rest met u stands collecting => wp_collectRound stands collecting) _ _ enough _ []
    stands ⟨sound₁, pool, swaps, rfl⟩
  obtain ⟨met, s', ran, it', ended, collecting⟩ := Program.wp.exists_ok looped fun _ _ never => never
  refine ⟨s', ?_, collecting.pool, ?_⟩
  · unfold collect
    rw [Program.run_bind_of_ok created, Program.run_get_bind, ran, ← collecting.met]
    simp
  · have released := collecting.swaps.holding s.pins fun p => by simp
    rw [held_of_end ended] at released
    exact released.eq

/-- A table without pages has nothing to walk over. -/
theorem run_create_of_empty (sound : s.Sound pages tableOf) {item : MetaItem}
    (entry : s.items t = some item) (empty : pages t = []) :
    ∃ it, (create t).run s = (.ok it, s) ∧ it.isEnd = true := by
  have linked := sound.layout.linked t item entry
  rw [empty] at linked
  have first : (getFirstPageId t).run s = (.ok item.firstPageId, s) := by
    simp [getFirstPageId, entry]
  unfold create
  rw [Program.run_bind_of_ok first]
  dsimp only
  rw [if_pos (show item.firstPageId = INVALID_PAGE_ID from linked)]
  exact ⟨_, rfl, rfl⟩

end TableIterator

/-! ## Runs that only insert -/

/-- The address at which a statement's event has put a record. -/
def Event.address : Event → Option RID
  | .insert _ _ rid _ => some rid
  | .replace _ _ new _ => some new
  | _ => none

/-- An INSERT statement, or the new version of a row that an UPDATE inserts. -/
inductive Growth where
  | insert (txn : Option Nat) (tableId : Nat) (row : Except String (List UInt8))
  | newVersion (txn : Option Nat) (tableId : Nat) (header : RecordHeader) (payload : List UInt8)

namespace Growth

def tableId : Growth → Nat
  | insert _ tableId _ => tableId
  | newVersion _ tableId _ _ => tableId

/-- UPDATE does not come to a new version of a table that is not there. -/
def Proper (s : Database) : Growth → Prop
  | insert _ _ _ => True
  | newVersion _ tableId _ _ => (s.items tableId).isSome = true

/-- The address at which a record was put, if one was, and the state that is left. -/
def perform (growth : Growth) (s : Database) : Option RID × Database :=
  match growth with
  | insert txn tableId row =>
      match (ExecutorInsert.insert txn tableId row).run s with
      | (.ok _, s') => (s'.journal.getLast?.bind Event.address, s')
      | (.error _, s') => (none, s')
  | newVersion txn tableId header payload =>
      match (ExecutorUpdate.insertNewVersion txn tableId (tupleOf header payload)).run s with
      | (.ok rid, s') => (if rid = ⟨0, 0⟩ then none else some rid, s')
      | (.error _, s') => (none, s')

end Growth

/-- What insertions lead to from an empty data file, and for each table the addresses of
    the records in the order in which they came. -/
inductive Grown : Database → (Nat → List RID) → Prop
  | start {s : Database} : s.Fresh → Grown s fun _ => []
  | perform {s : Database} {order : Nat → List RID} (growth : Growth) : Grown s order →
      growth.Proper s → Grown (growth.perform s).2
        (Function.update order growth.tableId
          (order growth.tableId ++ (growth.perform s).1.toList))

theorem Growth.perform_order (sound : s.Sound pages tableOf) {growth : Growth}
    (proper : growth.Proper s) :
    ∃ pages' tableOf', (growth.perform s).2.Sound pages' tableOf' ∧
      (growth.perform s).2.order pages' = Function.update (s.order pages) growth.tableId
        (s.order pages growth.tableId ++ (growth.perform s).1.toList) := by
  cases growth with
  | insert txn t row =>
      obtain ⟨result, s', pages', tableOf', held, ran, sound', -, -, ends⟩ := run_insert sound txn t row
      refine ⟨pages', tableOf', ?_⟩
      generalize versions : s'.versions tableOf' = m at ends
      generalize order : s'.order pages' = order' at ends
      unfold perform
      simp only [ran]
      cases ends with
      | noTable => exact ⟨sound', by simp [order, tableId]⟩
      | unserialized => exact ⟨sound', by simp [order, tableId]⟩
      | large => exact ⟨sound', by simp [order, tableId]⟩
      | @stored payload rid =>
          have journal : s'.journal =
              s.journal ++ [.insert (txn.getD INVALID_TX_ID) t rid payload] :=
            congrArg Mvcc.VersionStore.journal versions
          refine ⟨sound', ?_⟩
          simp [order, journal, Event.address, tableId]
  | newVersion txn t header payload =>
      obtain ⟨item, entry⟩ := Option.isSome_iff_exists.mp proper
      obtain ⟨s', pages', tableOf', sound', ran⟩ :=
        ExecutorUpdate.run_insertNewVersion sound entry txn (tupleOf header payload)
      refine ⟨pages', tableOf', ?_⟩
      unfold perform
      split at ran
      · obtain ⟨rid, ran, -, versions, order, -⟩ := ran
        have somewhere : rid ≠ ⟨0, 0⟩ := by
          apply @Database.ne_zero_of_stored s' tableOf' rid
          rw [versions]
          exact (Mvcc.VersionStore.slot_put ..).trans (if_pos rfl)
        simp only [ran, if_neg somewhere]
        exact ⟨sound', order⟩
      · obtain ⟨result, held, ran, ⟨-, rfl, -⟩ | ⟨-, rfl, -⟩, -, order, -⟩ := ran
        · simp only [ran]
          exact ⟨sound', by simp [order, tableId]⟩
        · simp only [ran]
          exact ⟨sound', by simp [order, tableId]⟩

theorem Grown.sound {order : Nat → List RID} (grown : Grown s order) :
    ∃ pages tableOf, s.Sound pages tableOf ∧ s.order pages = order := by
  induction grown with
  | start fresh => exact ⟨_, _, fresh.sound, rfl⟩
  | perform growth _ proper ih =>
      obtain ⟨pages, tableOf, sound, rfl⟩ := ih
      obtain ⟨pages', tableOf', sound', order⟩ := Growth.perform_order sound proper
      exact ⟨pages', tableOf', sound', order⟩

/-- Two rows, one behind the other. -/
def twoRows : Database :=
  ((Growth.insert none 1 (.ok [8])).perform ((Growth.insert (some 1) 1 (.ok [7])).perform oneTable).2).2

theorem twoRows_grown : ∃ order, Grown twoRows order ∧ order 1 = [⟨1, 1⟩, ⟨1, 2⟩] := by
  have first := (Grown.start oneTable_fresh).perform (.insert (some 1) 1 (.ok [7])) trivial
  exact ⟨_, first.perform (.insert none 1 (.ok [8])) trivial, by decide⟩

end YourSQL
