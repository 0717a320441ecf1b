import YourSQL.Buffer.Database

/-! # Rows, versions and snapshots

What a history of transactions means, read off the journal alone. A logical row is
inserted once; an UPDATE adds a version to it and a DELETE marks it, and both are
withdrawn when their transaction aborts. A transaction's snapshot holds what was
committed when its read view was taken, and its own writes.
-/

namespace YourSQL.Mvcc

structure Version where
  trx : Nat
  rid : RID
  payload : List UInt8
  deriving Repr, DecidableEq

/-- The versions of a row, the newest first, and who has deleted it. -/
structure LogicalRow where
  tableId : Nat
  versions : List Version
  deletedBy : Option Nat := none
  deriving Repr, DecidableEq

namespace LogicalRow

/-- Who wrote to the row, the last write first. -/
def trxs (row : LogicalRow) : List Nat := row.deletedBy.toList ++ row.versions.map Version.trx

def rids (row : LogicalRow) : List RID := row.versions.map Version.rid

/-- The newest version is stored here and not deleted. -/
def LiveAt (row : LogicalRow) (rid : RID) : Prop :=
  row.deletedBy = none ∧ row.versions.head?.map Version.rid = some rid

instance (row : LogicalRow) (rid : RID) : Decidable (row.LiveAt rid) :=
  inferInstanceAs (Decidable (_ ∧ _))

def delete (row : LogicalRow) (trx : Nat) (rid : RID) : LogicalRow :=
  if row.LiveAt rid then { row with deletedBy := some trx } else row

/-- The second half of an UPDATE: the deletion turns into a new version. -/
def replace (row : LogicalRow) (trx : Nat) (old new : RID) (payload : List UInt8) : LogicalRow :=
  if row.versions.head?.map Version.rid = some old then
    { row with versions := ⟨trx, new, payload⟩ :: row.versions, deletedBy := none }
  else
    row

/-- The row without the writes of a transaction; it may not be there at all then. -/
def withdraw (row : LogicalRow) (trx : Nat) : Option LogicalRow :=
  let versions := row.versions.filter (·.trx != trx)
  if versions = [] then
    none
  else
    some { row with versions := versions, deletedBy := row.deletedBy.filter (· != trx) }

/-- The version that exists for a reader who sees the writes of some transactions. -/
def versionFor (row : LogicalRow) (sees : Nat → Bool) : Option Version :=
  if row.deletedBy.any sees then none else row.versions.find? fun version => sees version.trx

end LogicalRow

def applyEvent (rows : List LogicalRow) : Event → List LogicalRow
  | .view _ => rows
  | .commit _ => rows
  | .abort trx => rows.filterMap (·.withdraw trx)
  | .insert trx tableId rid payload => rows ++ [⟨tableId, [⟨trx, rid, payload⟩], none⟩]
  | .delete trx rid => rows.map (·.delete trx rid)
  | .replace trx old new payload => rows.map (·.replace trx old new payload)

/-- The rows that a history leaves. -/
def rowsOf (journal : List Event) : List LogicalRow := journal.foldl applyEvent []

/-- Who has committed. -/
def committedOf (journal : List Event) : List Nat :=
  journal.filterMap fun
    | .commit trx => some trx
    | _ => none

/-- Going back to the last read view of a transaction. -/
def committedBeforeView (trx : Nat) : List Event → List Nat
  | [] => []
  | event :: earlier =>
      if event = .view trx then committedOf earlier.reverse else committedBeforeView trx earlier

/-- Who had committed when the transaction's read view was taken. -/
def snapshotOf (trx : Nat) (journal : List Event) : List Nat :=
  committedBeforeView trx journal.reverse

/-- Whose writes belong to the transaction's snapshot. -/
def seenBy (trx : Nat) (journal : List Event) (writer : Nat) : Bool :=
  writer == trx || (snapshotOf trx journal).contains writer

/-- The rows of a table in a transaction's snapshot, each with its version there. -/
def snapshotRows (trx tableId : Nat) (journal : List Event) : List Version :=
  ((rowsOf journal).filter (·.tableId == tableId)).filterMap (·.versionFor (seenBy trx journal))

@[simp] theorem rowsOf_snoc (journal : List Event) (event : Event) :
    rowsOf (journal ++ [event]) = applyEvent (rowsOf journal) event := by
  simp [rowsOf]

@[simp] theorem committedOf_nil : committedOf [] = [] := rfl

theorem mem_committedOf {journal : List Event} {trx : Nat} :
    trx ∈ committedOf journal ↔ .commit trx ∈ journal := by
  simp only [committedOf, List.mem_filterMap]
  constructor
  · rintro ⟨event, member, same⟩
    cases event with
    | commit trx' =>
        obtain rfl : trx' = trx := Option.some.inj same
        exact member
    | view => cases same
    | abort => cases same
    | insert => cases same
    | delete => cases same
    | replace => cases same
  · exact fun member => ⟨.commit trx, member, rfl⟩

@[simp] theorem snapshotOf_nil (trx : Nat) : snapshotOf trx [] = [] := rfl

theorem snapshotOf_snoc (trx : Nat) (journal : List Event) (event : Event) :
    snapshotOf trx (journal ++ [event]) =
      if event = .view trx then committedOf journal else snapshotOf trx journal := by
  simp [snapshotOf, committedBeforeView]

theorem snapshotOf_snoc_of_ne {trx : Nat} {event : Event} (ne : event ≠ .view trx)
    (journal : List Event) : snapshotOf trx (journal ++ [event]) = snapshotOf trx journal := by
  rw [snapshotOf_snoc, if_neg ne]

/-- A snapshot holds committed transactions only. -/
theorem mem_committedOf_of_snapshotOf {trx v : Nat} {journal : List Event}
    (member : v ∈ snapshotOf trx journal) : v ∈ committedOf journal := by
  induction journal using List.reverseRecOn with
  | nil => simp at member
  | append_singleton journal event ih =>
      rw [snapshotOf_snoc] at member
      rw [mem_committedOf, List.mem_append]
      refine .inl (mem_committedOf.mp ?_)
      split at member
      · exact member
      · exact ih member

@[simp] theorem seenBy_iff {trx writer : Nat} {journal : List Event} :
    seenBy trx journal writer = true ↔ writer = trx ∨ writer ∈ snapshotOf trx journal := by
  simp [seenBy]

end YourSQL.Mvcc
