import YourSQL.Executor.StoredRows
import YourSQL.Mvcc.AloneRun
import YourSQL.Mvcc.UpdatedRows

/-! # UPDATE conserves rows

A transaction that runs alone updates a table. If every row that WHERE matches has a new
version that fits an empty page, then the statement, if it returns, has replaced these rows
and left the others. A new version that does not fit is not always refused: the log may
take it, and then the row is gone without an exception.
-/

namespace YourSQL

open ExecutorUpdate (Hit SetClause)
open Mvcc (Guarded VersionStore)

variable {start s u : Database} {pages : Nat → List Nat} {tableOf : Nat → Nat} {trx t : Nat}
  {m₀ : VersionStore} {schema : List ColumnTypes} {clauses : List SetClause}
  {filter : Option Filter}

namespace ExecutorUpdate

/-- WHERE holds of the row. -/
def isMatch (filter : Option Filter) (row : Record) : Bool :=
  decide (matchesFilter filter row.payload = .ok true)

/-- WHERE raises an exception on the row, or it matches and its columns cannot be read. -/
def isUnreadable (schema : List ColumnTypes) (filter : Option Filter) (row : Record) : Bool :=
  match matchesFilter filter row.payload, Row.deserialize schema row.payload with
  | .error _, _ => true
  | .ok true, .error _ => true
  | _, _ => false

/-- The new version of the row can be made, and an empty page has space for it. -/
def isStorable (schema : List ColumnTypes) (clauses : List SetClause) (row : Record) : Bool :=
  match updatedBytes schema clauses row.payload with
  | .error _ => false
  | .ok bytes => decide (VersionFits bytes)

/-- Phase two comes to its end for the row: the old version fits the undo log, and the new
    one can be made and is taken by the log. -/
def comesToEnd (capacity : Option Nat) (schema : List ColumnTypes) (clauses : List SetClause)
    (row : Record) : Bool :=
  match updatedBytes schema clauses row.payload with
  | .error _ => false
  | .ok bytes => decide (row.size ≤ UNDO_CAPACITY ∧
      LogTakes capacity (tupleOf ⟨INVALID_TX_ID, .null, 0⟩ bytes).size)

/-- An empty page has no space for the new version, by the 16 bits of its size. -/
def isLost (schema : List ColumnTypes) (clauses : List SetClause) (row : Record) : Bool :=
  match updatedBytes schema clauses row.payload with
  | .error _ => false
  | .ok bytes => decide (¬ (tupleOf ⟨INVALID_TX_ID, .null, 0⟩ bytes).size + SLOT_SIZE ≤
      PAGE_SIZE - HEADER_SIZE)

/-- What a row is to be after the statement. -/
def bytesAfter (schema : List ColumnTypes) (clauses : List SetClause) (filter : Option Filter)
    (row : Record) : Except String (List UInt8) :=
  if isMatch filter row then updatedBytes schema clauses row.payload else .ok row.payload

/-- The statement raises an exception, and no new version has been lost before that. -/
def StopsInTime (capacity : Option Nat) (schema : List ColumnTypes) (clauses : List SetClause)
    (filter : Option Filter) (rows : List Record) : Prop :=
  (∃ row ∈ rows, isUnreadable schema filter row = true) ∨
    (∃ row ∈ rows.filter (isMatch filter), comesToEnd capacity schema clauses row = false) ∧
      ∀ row ∈ (rows.filter (isMatch filter)).takeWhile (comesToEnd capacity schema clauses),
        isLost schema clauses row = false

end ExecutorUpdate

open ExecutorUpdate

/-! ## What the statement promises -/

/-- The rows that match are replaced and the others stay, and the counter and the write set
    tell the rows that match, each once. -/
structure Database.Conserves (s s' : Database) (trx t : Nat) (schema : List ColumnTypes)
    (clauses : List SetClause) (filter : Option Filter) (rows : List Record) (updated : Nat) :
    Prop where
  scanned : ∃ rows' expected, s'.seen trx t = .ok rows' ∧
    List.Forall₂ (fun row bytes => bytesAfter schema clauses filter row = .ok bytes) rows expected ∧
    (rows'.map Record.payload).Perm expected
  counted : updated = (rows.filter (isMatch filter)).length
  once : ∃ added, (s'.txnManager.transaction trx).writeSet =
      (s.txnManager.transaction trx).writeSet ++ added ∧
    ((added.filter fun wr => !wr.type.inserts).map WriteRecord.rid).Nodup ∧
    (added.filter fun wr => !wr.type.inserts).map (fun wr => s.tupleAt wr.rid) =
      (rows.filter (isMatch filter)).map some ∧
    (added.filter fun wr => wr.type.inserts).length = updated

/-- Every entry of the write set names a record, and `Abort` brings back what there was at
    the start: every record is as it was, and what there is besides is dead. -/
def Database.Restorable (start s : Database) (trx : Nat) : Prop :=
  (∀ wr ∈ (s.txnManager.transaction trx).writeSet, (s.tupleAt wr.rid).isSome = true) ∧
    ∀ rid, ((Command.abort trx).perform s).tupleAt rid = start.tupleAt rid ∨
      start.tupleAt rid = none ∧ ∀ record,
        ((Command.abort trx).perform s).tupleAt rid = some record → record.isDead = true

/-- UPDATE conserves rows; where a new version cannot be stored, it raises an exception and
    `Abort` brings back the rows. -/
def Database.UpdateConserves (start s : Database) (trx t : Nat) (schema : List ColumnTypes)
    (clauses : List SetClause) (filter : Option Filter) : Prop :=
  ∃ rows, s.seen trx t = .ok rows ∧
    (∀ updated s', (update (some trx) t schema clauses filter).run s = (.ok updated, s') →
      s.Conserves s' trx t schema clauses filter rows updated) ∧
    ((∃ row ∈ rows, isMatch filter row = true ∧ isStorable schema clauses row = false) →
      ∃ message s', (update (some trx) t schema clauses filter).run s = (.error message, s') ∧
        start.Restorable s' trx)

/-- All rows that match have new versions that can be stored, or the statement stops before
    any version of the transaction's has been lost. -/
def Database.Replaceable (s : Database) (trx t : Nat) (schema : List ColumnTypes)
    (clauses : List SetClause) (filter : Option Filter) : Prop :=
  ∃ rows, s.seen trx t = .ok rows ∧
    ((∀ row ∈ rows, isMatch filter row = true → isStorable schema clauses row = true) ∨
      StopsInTime s.logCapacity schema clauses filter rows ∧
        ∀ wr ∈ (s.txnManager.transaction trx).writeSet, (s.tupleAt wr.rid).isSome = true)

/-! ## Hits -/

theorem Database.mem_hitsAt {rids : List RID} {hit : Hit}
    (member : hit ∈ s.hitsAt trx schema clauses filter rids) :
    s.tupleAt hit.rid = some hit.old ∧
      updatedBytes schema clauses hit.old.payload = Row.serialize schema hit.newValues := by
  obtain ⟨rid, -, found⟩ := List.mem_filterMap.mp member
  obtain ⟨record, stored, taken⟩ := Option.bind_eq_some_iff.mp found
  unfold hitAt at taken
  split at taken
  · rename_i values target read
    obtain rfl := Option.some.inj taken
    refine ⟨stored, ?_⟩
    rw [updatedBytes, read]
    rfl
  · cases taken

section

variable {capacity : Option Nat} {hit : Hit}

theorem ExecutorUpdate.Hit.returns_iff
    (made : updatedBytes schema clauses hit.old.payload = Row.serialize schema hit.newValues) :
    hit.Returns capacity schema ↔ comesToEnd capacity schema clauses hit.old = true := by
  unfold Returns comesToEnd
  rw [made]
  cases Row.serialize schema hit.newValues <;> simp

theorem ExecutorUpdate.Hit.lost_iff
    (made : updatedBytes schema clauses hit.old.payload = Row.serialize schema hit.newValues) :
    hit.Lost schema ↔ isLost schema clauses hit.old = true := by
  unfold Lost isLost
  rw [made]
  cases Row.serialize schema hit.newValues <;> simp

theorem ExecutorUpdate.Hit.arrivals_of_storable
    (made : updatedBytes schema clauses hit.old.payload = Row.serialize schema hit.newValues)
    (storable : isStorable schema clauses hit.old = true) :
    ∃ bytes, updatedBytes schema clauses hit.old.payload = .ok bytes ∧
      hit.arrivals schema = {bytes} := by
  unfold isStorable at storable
  rw [made] at storable ⊢
  unfold arrivals
  cases serialized : Row.serialize schema hit.newValues with
  | error message =>
      rw [serialized] at storable
      cases storable
  | ok bytes =>
      rw [serialized] at storable
      have fits : VersionFits bytes := of_decide_eq_true storable
      refine ⟨bytes, rfl, ?_⟩
      dsimp only
      rw [if_pos (size_tupleOf_of_fits _ fits), tupleOf_eq _ fits]

end

theorem Database.map_record_slot (s : Database) (tableOf : Nat → Nat) (rid : RID) :
    ((s.versions tableOf).slot rid).map Slot.record = s.tupleAt rid := by
  simp [versions, store, tupleAt, Function.comp_def]

theorem Database.mem_liveAt {rids : List RID} {row : Record} :
    row ∈ s.liveAt rids ↔ ∃ rid ∈ rids, s.tupleAt rid = some row ∧ row.isLive = true := by
  simp only [liveAt, List.mem_filterMap, Option.filter_eq_some_iff]

namespace Database.Kept

/-- Phase one raises an exception on live rows that cannot be read. -/
theorem gatherFails_iff (kept : s.Kept m₀ trx pages tableOf) {rid : RID} {record : Record}
    (stored : (s.versions tableOf).slot rid = some ⟨t, record⟩) :
    s.GatherFails trx schema filter record ↔
      record.isLive = true ∧ isUnreadable schema filter record = true := by
  unfold Database.GatherFails isUnreadable
  rw [kept.isTarget stored]
  cases record.isLive with
  | false => simp
  | true =>
      cases matchesFilter filter record.payload with
      | error message => simp
      | ok isMatch =>
          cases isMatch <;> cases Row.deserialize schema record.payload <;> simp

theorem clean_iff (kept : s.Kept m₀ trx pages tableOf) :
    s.Clean pages t (s.GatherFails trx schema filter) ↔
      ∀ row ∈ s.liveAt (s.addresses (pages t)), isUnreadable schema filter row = false := by
  constructor
  · intro clean row member
    obtain ⟨rid, inside, found, live⟩ := Database.mem_liveAt.mp member
    obtain ⟨record, stored⟩ := kept.sound.mem_addresses.mp inside
    obtain rfl := Option.some.inj ((Database.tupleAt_of_slot stored).symm.trans found)
    rw [← Bool.not_eq_true]
    exact fun unreadable => clean rid inside _ found ((kept.gatherFails_iff stored).mpr ⟨live, unreadable⟩)
  · intro readable rid inside record found raised
    obtain ⟨record', stored⟩ := kept.sound.mem_addresses.mp inside
    obtain rfl := Option.some.inj ((Database.tupleAt_of_slot stored).symm.trans found)
    obtain ⟨live, unreadable⟩ := (kept.gatherFails_iff stored).mp raised
    rw [readable _ (Database.mem_liveAt.mpr ⟨rid, inside, found, live⟩)] at unreadable
    cases unreadable

/-- The hits are the rows that match, in the order of the scan. -/
theorem old_hits (kept : s.Kept m₀ trx pages tableOf) (clauses : List SetClause)
    (clean : s.Clean pages t (s.GatherFails trx schema filter)) :
    (s.hitsAt trx schema clauses filter (s.addresses (pages t))).map Hit.old =
      (s.liveAt (s.addresses (pages t))).filter (isMatch filter) := by
  rw [Database.hitsAt, Database.liveAt, List.map_filterMap, List.filter_filterMap]
  apply List.filterMap_congr
  intro rid inside
  obtain ⟨record, stored⟩ := kept.sound.mem_addresses.mp inside
  have found := Database.tupleAt_of_slot stored
  have passes := clean rid inside record found
  rw [kept.gatherFails_iff stored] at passes
  have target := kept.isTarget stored filter
  rw [found, Option.bind_some, Database.hitAt, target]
  unfold isUnreadable at passes
  unfold isMatch
  cases live : record.isLive with
  | false => simp [Option.filter, live]
  | true =>
      rw [live] at passes
      cases matched : matchesFilter filter record.payload with
      | error message => simp [matched] at passes
      | ok isMatch =>
          cases isMatch with
          | false => simp [Option.filter, live, matched]
          | true =>
              cases read : Row.deserialize schema record.payload with
              | error message => simp [matched, read] at passes
              | ok values => simp [Option.filter, live, matched]

/-- A statement of the transaction ends where its own steps lead. -/
theorem reach {pages' : Nat → List Nat} {tableOf' : Nat → Nat} (kept : s.Kept m₀ trx pages tableOf)
    (reaches : u.Reaches (s.versions tableOf) trx pages' tableOf') :
    u.Kept m₀ trx pages' tableOf' where
  sound := reaches.sound
  guarded := reaches.steps.guarded kept.guarded kept.active
  attributed := reaches.steps.attributed kept.guarded kept.active kept.attributed
  solo := reaches.steps.solo kept.guarded kept.solo

end Database.Kept

/-! ## The statement returns -/

/-- Some items are replaced: with the old ones back, these are the new ones and what there
    was before. -/
theorem map_replaced {α β : Type} (p : α → Bool) (old new : α → β) (items : List α) :
    ((items.map fun a => if p a then new a else old a : List β) : Multiset β) +
        (items.filter p).map old =
      (items.filter p).map new + items.map old := by
  induction items with
  | nil => rfl
  | cons a items ih =>
      cases replaced : p a with
      | false => simp [replaced, ← Multiset.cons_coe, ih]
      | true =>
          simp only [List.map_cons, replaced, if_true, List.filter_cons_of_pos,
            ← Multiset.cons_coe, Multiset.cons_add, Multiset.add_cons]
          rw [ih, Multiset.cons_swap]

theorem sum_arrivals {hits : List Hit} {new : Record → List UInt8}
    (arrive : ∀ hit ∈ hits, hit.arrivals schema = {new hit.old}) :
    (hits.map (Hit.arrivals schema)).sum = ((hits.map Hit.old).map new : List (List UInt8)) := by
  induction hits with
  | nil => rfl
  | cons hit hits ih =>
      rw [List.map_cons, List.sum_cons, arrive hit (List.mem_cons_self ..),
        ih fun other member => arrive other (List.mem_cons_of_mem _ member)]
      rfl

/-- The new bytes of a row, where they can be made. -/
def ExecutorUpdate.newBytes (schema : List ColumnTypes) (clauses : List SetClause) (row : Record) :
    List UInt8 :=
  (updatedBytes schema clauses row.payload).toOption.getD []

namespace Database.Kept

theorem conserves (kept : s.Kept m₀ trx pages tableOf)
    (clean : s.Clean pages t (s.GatherFails trx schema filter))
    (rewriting : Rewriting s (s.versions tableOf) trx t schema
      (s.hitsAt trx schema clauses filter (s.addresses (pages t))) [] u)
    (storable : ∀ row ∈ s.liveAt (s.addresses (pages t)), isMatch filter row = true →
      isStorable schema clauses row = true) :
    s.Conserves u trx t schema clauses filter (s.liveAt (s.addresses (pages t)))
      (s.hitsAt trx schema clauses filter (s.addresses (pages t))).length := by
  obtain ⟨pages', tableOf', done, split, sound', works, -⟩ := rewriting.works
  rw [List.append_nil] at split
  subst split
  have kept' : u.Kept m₀ trx pages' tableOf' := kept.reach ⟨sound', works.steps⟩
  obtain ⟨item', entry'⟩ := Option.isSome_iff_exists.mp rewriting.known
  have olds := kept.old_hits clauses clean
  let rows := s.liveAt (s.addresses (pages t))
  let hits := s.hitsAt trx schema clauses filter (s.addresses (pages t))
  have target : ∀ hit ∈ hits, hit.old ∈ rows ∧ isMatch filter hit.old = true := by
    intro hit member
    have inside : hit.old ∈ rows.filter (isMatch filter) :=
      olds ▸ List.mem_map.mpr ⟨hit, member, rfl⟩
    exact List.mem_filter.mp inside
  refine
    { scanned := ?_
      counted := ?_
      once := ?_ }
  · obtain ⟨rows', after, balance⟩ := works.holds kept.guarded kept.active (kept.holds t)
    have arrive : ∀ hit ∈ hits, hit.arrivals schema = {newBytes schema clauses hit.old} := by
      intro hit member
      obtain ⟨inRows, matched⟩ := target hit member
      obtain ⟨bytes, made, arrived⟩ := hit.arrivals_of_storable (Database.mem_hitsAt member).2
        (storable _ inRows matched)
      rw [arrived, newBytes, made]
      rfl
    let expected : List (List UInt8) := rows.map fun row =>
      if isMatch filter row then newBytes schema clauses row else row.payload
    refine ⟨_, expected, kept'.seen entry', ?_, ?_⟩
    · rw [List.forall₂_map_right_iff, List.forall₂_same]
      intro row member
      unfold bytesAfter
      cases matched : isMatch filter row with
      | false => rfl
      | true =>
          have isNew := storable row member matched
          unfold isStorable at isNew
          unfold newBytes
          cases made : updatedBytes schema clauses row.payload with
          | error message =>
              rw [made] at isNew
              cases isNew
          | ok bytes => rfl
    · have same := after.unique (kept'.holds t)
      have replaced := map_replaced (isMatch filter) Record.payload (newBytes schema clauses) rows
      have gone : (hits.map fun hit => hit.old.payload) =
          (rows.filter (isMatch filter)).map Record.payload := by
        rw [← olds, List.map_map]
        rfl
      rw [gone, sum_arrivals arrive, olds, same, ← replaced, add_comm] at balance
      exact Multiset.coe_eq_coe.mp (add_right_cancel balance)
  · rw [← olds, List.length_map]
  · obtain ⟨added, writeSet, deleted, inserted, -⟩ := works.entries kept.guarded kept.active
    refine ⟨added, writeSet, ?_, ?_, inserted⟩
    · rw [deleted]
      exact (s.rids_hitsAt _).nodup (kept.sound.nodup_addresses t)
    · calc (added.filter fun wr => !wr.type.inserts).map (fun wr => s.tupleAt wr.rid)
          = ((added.filter fun wr => !wr.type.inserts).map WriteRecord.rid).map s.tupleAt :=
            (@List.map_map _ _ _ s.tupleAt WriteRecord.rid _).symm
        _ = hits.map fun hit => s.tupleAt hit.rid := by
            rw [deleted, List.map_map]
            rfl
        _ = hits.map fun hit => some hit.old :=
            List.map_congr_left fun hit member => (Database.mem_hitsAt member).1
        _ = (hits.map Hit.old).map some := (List.map_map ..).symm
        _ = (rows.filter (isMatch filter)).map some := by rw [olds]

/-! ## The statement raises an exception -/

/-- A transaction under way has entered (0, 0) for each new version that was lost, and else
    only addresses of records. -/
theorem named_iff (kept : s.Kept m₀ trx pages tableOf) :
    (∀ wr ∈ (s.txnManager.transaction trx).writeSet, (s.tupleAt wr.rid).isSome = true) ↔
      ∀ wr ∈ (s.txnManager.transaction trx).writeSet, wr.rid ≠ ⟨0, 0⟩ := by
  have owns := kept.guarded.owns trx kept.active
  constructor
  · intro named wr member zero
    obtain ⟨record, found⟩ := Option.isSome_iff_exists.mp (named wr member)
    exact Database.ne_zero_of_stored (Database.slot_of_tupleAt found tableOf) zero
  · intro somewhere wr member
    cases kind : wr.type.inserts with
    | true =>
        rcases owns.inserted wr member kind with zero | ⟨record, stored, -⟩
        · exact absurd zero (somewhere wr member)
        · rw [Database.tupleAt_of_slot stored, Option.isSome_some]
    | false =>
        obtain ⟨old, pointer, -, -, stored, -⟩ := owns.deleted wr member kind
        rw [Database.tupleAt_of_slot stored, Option.isSome_some]

/-- `Abort` brings back what there was at the start. -/
theorem restored {tableOf₀ : Nat → Nat} (kept : s.Kept (start.versions tableOf₀) trx pages tableOf)
    (rid : RID) :
    ((Command.abort trx).perform s).tupleAt rid = start.tupleAt rid ∨
      start.tupleAt rid = none ∧ ∀ record,
        ((Command.abort trx).perform s).tupleAt rid = some record → record.isDead = true := by
  obtain ⟨-, versions⟩ := kept.toSecure.abort_tables kept.active
  have back := kept.solo.back rid
  rw [show (s.versions tableOf).undone trx = ((s.versions tableOf).aborted trx).toRecordStore from rfl,
    ← versions] at back
  rcases back with same | ⟨nothing, dead⟩
  · left
    rw [← Database.map_record_slot _ tableOf, same, Database.map_record_slot]
  · right
    refine ⟨by rw [← Database.map_record_slot start tableOf₀, nothing, Option.map_none], ?_⟩
    exact fun record found => dead _ (Database.slot_of_tupleAt found tableOf)

/-- Phase two has worked off all hits, so none of them stops it. -/
theorem not_stopsInTime (kept : s.Kept m₀ trx pages tableOf)
    (clean : s.Clean pages t (s.GatherFails trx schema filter))
    (rewriting : Rewriting s (s.versions tableOf) trx t schema
      (s.hitsAt trx schema clauses filter (s.addresses (pages t))) [] u) :
    ¬ StopsInTime s.logCapacity schema clauses filter (s.liveAt (s.addresses (pages t))) := by
  obtain ⟨done, split, returns⟩ := rewriting.worked
  rw [List.append_nil] at split
  subst split
  rintro (⟨row, member, unreadable⟩ | ⟨⟨row, member, stuck⟩, -⟩)
  · rw [kept.clean_iff.mp clean row member] at unreadable
    cases unreadable
  · rw [← kept.old_hits clauses clean] at member
    obtain ⟨hit, isHit, rfl⟩ := List.mem_map.mp member
    have ends := (hit.returns_iff (Database.mem_hitsAt isHit).2).mp (returns hit isHit)
    rw [stuck] at ends
    cases ends

/-- Where phase two stops, a new version has been lost before if and only if one of the rows
    before is such. -/
theorem stopsInTime_iff (kept : s.Kept m₀ trx pages tableOf)
    (clean : s.Clean pages t (s.GatherFails trx schema filter)) {hit : Hit} {done rest : List Hit}
    (split : s.hitsAt trx schema clauses filter (s.addresses (pages t)) = done ++ hit :: rest)
    (returns : ∀ hit ∈ done, hit.Returns s.logCapacity schema)
    (raises : ¬ hit.Returns s.logCapacity schema) :
    StopsInTime s.logCapacity schema clauses filter (s.liveAt (s.addresses (pages t))) ↔
      ∀ hit ∈ done, ¬ hit.Lost schema := by
  have made : ∀ other ∈ done ++ hit :: rest,
      updatedBytes schema clauses other.old.payload = Row.serialize schema other.newValues :=
    fun other member => (Database.mem_hitsAt (split ▸ member)).2
  have stuck : comesToEnd s.logCapacity schema clauses hit.old = false := by
    rw [← Bool.not_eq_true, ← hit.returns_iff (made hit (by simp))]
    exact raises
  have ended : ∀ row ∈ done.map Hit.old, comesToEnd s.logCapacity schema clauses row = true := by
    intro row member
    obtain ⟨other, isHit, rfl⟩ := List.mem_map.mp member
    exact (other.returns_iff (made other (List.mem_append_left _ isHit))).mp (returns other isHit)
  have readable : ¬ ∃ row ∈ s.liveAt (s.addresses (pages t)), isUnreadable schema filter row = true := by
    rintro ⟨row, member, unreadable⟩
    rw [kept.clean_iff.mp clean row member] at unreadable
    cases unreadable
  have olds := kept.old_hits clauses clean
  rw [split, List.map_append, List.map_cons] at olds
  have before : ((s.liveAt (s.addresses (pages t))).filter (isMatch filter)).takeWhile
      (comesToEnd s.logCapacity schema clauses) = done.map Hit.old := by
    rw [← olds, List.takeWhile_append_of_pos ended, List.takeWhile_cons_of_neg (by simp [stuck]),
      List.append_nil]
  unfold StopsInTime
  rw [before, or_iff_right readable, and_iff_right ⟨hit.old, olds ▸ by simp, stuck⟩]
  simp only [List.forall_mem_map]
  refine forall₂_congr fun other isHit => ?_
  rw [other.lost_iff (made other (List.mem_append_left _ isHit)), Bool.not_eq_true]

/-- Phase one stops before anything is entered. -/
theorem stopsInTime_of_gather (kept : s.Kept m₀ trx pages tableOf) {rid : RID} {rest : List RID}
    {held : List Nat} (stopped : StoppedAt s pages t (s.GatherFails trx schema filter) rid rest held u)
    (capacity : Option Nat) (clauses : List SetClause) :
    StopsInTime capacity schema clauses filter (s.liveAt (s.addresses (pages t))) := by
  obtain ⟨record, found, raised⟩ := stopped.fails
  obtain ⟨done, split, -⟩ := stopped.passed
  have inside : rid ∈ s.addresses (pages t) := by simp [split]
  obtain ⟨record', stored⟩ := kept.sound.mem_addresses.mp inside
  obtain rfl := Option.some.inj ((Database.tupleAt_of_slot stored).symm.trans found)
  obtain ⟨live, unreadable⟩ := (kept.gatherFails_iff stored).mp raised
  exact .inl ⟨_, Database.mem_liveAt.mpr ⟨rid, inside, found, live⟩, unreadable⟩

/-- Phase two enters an address for each version that is lost. -/
theorem named_of_rewrite (kept : s.Kept m₀ trx pages tableOf)
    (clean : s.Clean pages t (s.GatherFails trx schema filter)) {hit : Hit} {held : List Nat}
    (stopped : RewriteStopped s (s.versions tableOf) trx t schema
      (s.hitsAt trx schema clauses filter (s.addresses (pages t))) hit held u) :
    (∀ wr ∈ (u.txnManager.transaction trx).writeSet, wr.rid ≠ ⟨0, 0⟩) ↔
      StopsInTime s.logCapacity schema clauses filter (s.liveAt (s.addresses (pages t))) ∧
        ∀ wr ∈ (s.txnManager.transaction trx).writeSet, wr.rid ≠ ⟨0, 0⟩ := by
  obtain ⟨pages', tableOf', done, rest, m', message, split, -, works, stored, -, ends⟩ :=
    stopped.works
  rw [kept.stopsInTime_iff clean split works.returns stopped.raised.1]
  obtain ⟨added, worked, -, -, lost⟩ := works.entries kept.guarded kept.active
  obtain ⟨last, entered, own⟩ := ends.entries_of_error
  have somewhere : hit.rid ≠ ⟨0, 0⟩ := by
    intro zero
    rw [zero, (works.steps.guarded kept.guarded kept.active).nowhere] at stored
    cases stored
  have writeSet : (u.txnManager.transaction trx).writeSet =
      (s.txnManager.transaction trx).writeSet ++ added ++ last :=
    entered.trans (congrArg (fun entries => entries ++ last) worked)
  have none : (∀ wr ∈ added, wr.rid ≠ ⟨0, 0⟩) ↔ ∀ hit ∈ done, ¬ hit.Lost schema := by
    have none := not_congr lost
    push Not at none
    exact none
  have spared : ∀ wr ∈ last, wr.rid ≠ ⟨0, 0⟩ := fun wr member => own wr member ▸ somewhere
  rw [writeSet, List.forall_mem_append, List.forall_mem_append, and_iff_left spared, none, and_comm]

/-- Where the statement raises an exception, all entries name records if and only if it has
    stopped in time. -/
theorem raised_named_iff (kept : s.Kept m₀ trx pages tableOf)
    (raised : (s.Scans pages tableOf u ∧
        ∃ rid rest p, StoppedAt s pages t (s.GatherFails trx schema filter) rid rest [p] u) ∨
      s.Clean pages t (s.GatherFails trx schema filter) ∧
        ∃ hit held, RewriteStopped s (s.versions tableOf) trx t schema
          (s.hitsAt trx schema clauses filter (s.addresses (pages t))) hit held u) :
    (∀ wr ∈ (u.txnManager.transaction trx).writeSet, wr.rid ≠ ⟨0, 0⟩) ↔
      StopsInTime s.logCapacity schema clauses filter (s.liveAt (s.addresses (pages t))) ∧
        ∀ wr ∈ (s.txnManager.transaction trx).writeSet, wr.rid ≠ ⟨0, 0⟩ := by
  rcases raised with ⟨scans, rid, rest, p, stopped⟩ | ⟨clean, hit, held, stopped⟩
  · rw [scans.pool.txnManager, and_iff_right (kept.stopsInTime_of_gather stopped ..)]
  · exact kept.named_of_rewrite clean stopped

/-- UPDATE keeps its promise where all new versions can be stored, or it stops in time. -/
theorem updateConserves_iff_replaceable {tableOf₀ : Nat → Nat}
    (kept : s.Kept (start.versions tableOf₀) trx pages tableOf) {item : MetaItem}
    (entry : s.items t = some item) (schema : List ColumnTypes) (clauses : List SetClause)
    (filter : Option Filter) :
    start.UpdateConserves s trx t schema clauses filter ↔
      s.Replaceable trx t schema clauses filter := by
  have seen := kept.seen entry
  have outcome := wp_update_steps kept.sound kept.guarded kept.active t schema clauses filter
  unfold Program.wp at outcome
  constructor
  · rintro ⟨rows, seen', -, recovers⟩
    obtain rfl := Except.ok.inj (seen.symm.trans seen')
    refine ⟨_, seen, ?_⟩
    by_cases storable : ∀ row ∈ s.liveAt (s.addresses (pages t)), isMatch filter row = true →
        isStorable schema clauses row = true
    · exact .inl storable
    · right
      push Not at storable
      obtain ⟨row, member, matched, large⟩ := storable
      obtain ⟨message, u, ran, named, -⟩ :=
        recovers ⟨row, member, matched, Bool.eq_false_of_not_eq_true large⟩
      rw [ran] at outcome
      obtain ⟨⟨pages', tableOf', reaches⟩, ⟨missing, -⟩ | raised⟩ := outcome
      · rw [entry] at missing
        cases missing
      · have inTime := (kept.raised_named_iff raised).mp ((kept.reach reaches).named_iff.mp named)
        exact ⟨inTime.1, kept.named_iff.mpr inTime.2⟩
  · rintro ⟨rows, seen', replaceable⟩
    obtain rfl := Except.ok.inj (seen.symm.trans seen')
    refine ⟨_, seen, ?_, ?_⟩
    · intro updated u ran
      rw [ran] at outcome
      obtain ⟨clean, rfl, rewriting⟩ := outcome
      rcases replaceable with storable | ⟨stops, -⟩
      · exact kept.conserves clean rewriting storable
      · exact absurd stops (kept.not_stopsInTime clean rewriting)
    · rintro ⟨row, member, matched, large⟩
      rcases replaceable with storable | ⟨stops, named⟩
      · rw [storable row member matched] at large
        cases large
      · split at outcome
        · obtain ⟨clean, -, rewriting⟩ := outcome
          exact absurd stops (kept.not_stopsInTime clean rewriting)
        · rename_i message u ran
          obtain ⟨⟨pages', tableOf', reaches⟩, ⟨missing, -⟩ | raised⟩ := outcome
          · rw [entry] at missing
            cases missing
          · have kept' := kept.reach reaches
            have somewhere := (kept.raised_named_iff raised).mpr ⟨stops, kept.named_iff.mp named⟩
            exact ⟨message, u, ran, kept'.named_iff.mpr somewhere, kept'.restored⟩

end Database.Kept

/-- For a transaction that runs alone: UPDATE conserves rows, and raises an exception from
    which `Abort` recovers where a new version cannot be stored, if and only if all new
    versions can be stored or the statement stops before one has been lost. -/
theorem Database.Alone.updateConserves_iff (alone : start.Alone trx s) {item : MetaItem}
    (entry : s.items t = some item) (schema : List ColumnTypes) (clauses : List SetClause)
    (filter : Option Filter) :
    start.UpdateConserves s trx t schema clauses filter ↔
      s.Replaceable trx t schema clauses filter := by
  obtain ⟨pages₀, tableOf₀, pages, tableOf, -, kept⟩ := alone.kept
  exact kept.updateConserves_iff_replaceable entry schema clauses filter

/-- Transaction 1 runs alone and has inserted a short string. -/
def oneString : Database :=
  (Command.insert (some 1) 1 (Row.serialize [.varchar] [.of (.string [97])])).perform
    (Command.begin.perform oneTable)

theorem oneString_alone : oneTable.Alone 1 oneString where
  reachable := ⟨oneTable, oneTable_fresh, .refl⟩
  nobody := rfl
  id := rfl
  run := Interleaving.refl.perform _ (by simp [Command.client]) ⟨1, by decide, rfl⟩

def storedString : Record := ⟨⟨1, .null, 0⟩, [49, 1, 0, 0, 0, 0, 0, 0, 0, 97]⟩

theorem oneString_seen : oneString.seen 1 1 = .ok [storedString] := rfl

theorem updateConserves_iff_oneString :
    oneTable.UpdateConserves oneString 1 1 [.varchar] [⟨0, .of (.string [98])⟩] none := by
  apply (oneString_alone.updateConserves_iff rfl [.varchar] [⟨0, .of (.string [98])⟩] none).mpr
  exact ⟨_, oneString_seen, .inl (by decide)⟩

/-- UPDATE with a string that fits no page. The log takes it, and the row is gone. -/
theorem longString_loses_row :
    ¬ oneTable.UpdateConserves oneString 1 1 [.varchar]
      [⟨0, .of (.string (List.replicate 5000 97))⟩] none := by
  generalize long : List.replicate 5000 (97 : UInt8) = val
  have length : val.length = 5000 := by rw [← long, List.length_replicate]
  let clauses : List SetClause := [⟨0, .of (.string val)⟩]
  let payload : List UInt8 := 49 :: (Bytes.ofNat 8 val.length ++ val)
  have made : updatedBytes [.varchar] clauses storedString.payload = .ok payload :=
    Row.serialize_varchar val
  have size : Row.useSize payload = 5031 := by rw [Row.useSize_varchar, length]
  have large : isStorable [.varchar] clauses storedString = false := by
    unfold isStorable
    rw [made]
    apply decide_eq_false
    intro fits
    change Row.useSize payload + SLOT_SIZE ≤ PAGE_SIZE - HEADER_SIZE at fits
    rw [size] at fits
    exact absurd fits (by decide)
  have ends : comesToEnd oneString.logCapacity [.varchar] clauses storedString = true := by
    unfold comesToEnd
    rw [made]
    apply decide_eq_true
    refine ⟨by decide, ?_⟩
    rw [tupleOf_of_small _ (by omega)]
    change LogTakes oneString.logCapacity (Row.useSize payload)
    rw [size]
    decide
  obtain ⟨pages₀, tableOf₀, pages, tableOf, -, kept⟩ := oneString_alone.kept
  rw [kept.updateConserves_iff_replaceable rfl]
  rintro ⟨rows, seen, replaceable⟩
  obtain rfl := Except.ok.inj (oneString_seen.symm.trans seen)
  rcases replaceable with storable | ⟨⟨row, member, unreadable⟩ | ⟨⟨row, member, stuck⟩, -⟩, -⟩
  · rw [storable storedString (by simp) rfl] at large
    cases large
  · obtain rfl := List.mem_singleton.mp member
    cases unreadable
  · obtain rfl := List.mem_singleton.mp (List.mem_filter.mp member).1
    rw [stuck] at ends
    cases ends

end YourSQL
