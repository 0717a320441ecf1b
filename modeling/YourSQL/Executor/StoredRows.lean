import YourSQL.Executor.HeapChain
import YourSQL.Mvcc.DirtyWrites
import YourSQL.Storage.RowRoundTrip

/-! # What INSERT makes of a row

A row that INSERT accepts comes back from a scan, byte for byte, as long as 16 bits hold
its size. A longer one is taken for what is left of the size in 16 bits: where that fits a
page, INSERT returns and has stored the front of the row.
-/

namespace YourSQL

open Mvcc (VersionStore)

variable {s s' : Database} {pages pages' : Nat → List Nat} {tableOf tableOf' : Nat → Nat} {t : Nat}

/-- What a scan of the table meets, with the addresses. -/
def Database.scanned (s : Database) (t : Nat) : Except String (List (RID × Option Record)) :=
  ((TableIterator.collect t).run s).1

theorem Database.Sound.scanned (sound : s.Sound pages tableOf) {item : MetaItem}
    (entry : s.items t = some item) :
    s.scanned t = .ok ((s.order pages t).map fun rid => (rid, s.tupleAt rid)) := by
  obtain ⟨s', ran, -⟩ := TableIterator.run_collect sound entry
  rw [Database.scanned, ran]

/-- INSERT throws and a scan meets what it met before, or a scan meets one more record,
    which is what `Serialize` wrote and what `Deserialize` reads back, without a step outside. -/
def Database.InsertStores (s : Database) (txn : Option Nat) (t : Nat) (schema : List ColumnTypes)
    (values : List Value) : Prop :=
  ∃ rows, s.scanned t = .ok rows ∧
    match (ExecutorInsert.insert txn t (Row.serialize schema values)).run s with
    | (.error _, s') => s'.scanned t = .ok rows
    | (.ok _, s') =>
        ∃ rid payload, Row.serialize schema values = .ok payload ∧
          s'.scanned t =
            .ok (rows ++ [(rid, some ⟨⟨txn.getD INVALID_TX_ID, .null, 0⟩, payload⟩)]) ∧
          Row.deserialize schema payload = .ok values ∧
          Row.readsTo payload 0 schema.length schema ≤ payload.length ∧
          schema.length ≤ payload.length

/-- The size of the row is lost in `tuple_size_`, and what is left of it fits a page. -/
def Row.WrapsAround (schema : List ColumnTypes) (values : List Value) : Prop :=
  ∃ payload, serialize schema values = .ok payload ∧ 2 ^ 16 ≤ useSize payload ∧
    useSize payload % 2 ^ 16 + SLOT_SIZE ≤ PAGE_SIZE - HEADER_SIZE

/-! ## The tuple -/

theorem tupleOf_of_small (header : RecordHeader) {payload : List UInt8}
    (small : Row.useSize payload < 2 ^ 16) : tupleOf header payload = ⟨header, payload⟩ := by
  unfold Row.useSize at small
  unfold tupleOf
  rw [Nat.mod_eq_of_lt small, Nat.add_sub_cancel_left, List.take_length]

theorem payload_tupleOf_of_large (header : RecordHeader) {payload : List UInt8}
    (large : 2 ^ 16 ≤ Row.useSize payload) : (tupleOf header payload).payload ≠ payload := by
  intro same
  have length := congrArg List.length same
  simp only [tupleOf, List.length_take, Row.useSize, REC_HEADER_SIZE] at length large
  omega

/-- What fits a page is decided by the 16 bits. -/
theorem size_tupleOf (header : RecordHeader) (payload : List UInt8) :
    (tupleOf header payload).size + SLOT_SIZE ≤ PAGE_SIZE - HEADER_SIZE ↔
      Row.useSize payload % 2 ^ 16 + SLOT_SIZE ≤ PAGE_SIZE - HEADER_SIZE := by
  simp only [tupleOf, Record.size, List.length_take, Row.useSize, REC_HEADER_SIZE, SLOT_SIZE,
    PAGE_SIZE, HEADER_SIZE]
  omega

/-! ## What a scan meets afterwards -/

/-- Nothing was stored. -/
theorem Database.Sound.scanned_same (sound : s.Sound pages tableOf) (sound' : s'.Sound pages' tableOf')
    {item item' : MetaItem} (entry : s.items t = some item) (entry' : s'.items t = some item')
    (versions : s'.versions tableOf' = s.versions tableOf) (order : s'.order pages' = s.order pages) :
    s'.scanned t = s.scanned t := by
  rw [sound.scanned entry, sound'.scanned entry', order]
  have slots : ∀ rid, s'.tupleAt rid = s.tupleAt rid := by
    intro rid
    have here := congrArg (fun m => (m.slot rid).map Slot.record) versions
    simpa [Database.versions, Database.store, Database.tupleAt, Function.comp_def] using here
  simp only [slots]

/-- One record was stored. -/
theorem Database.Sound.scanned_put (sound : s.Sound pages tableOf) (sound' : s'.Sound pages' tableOf')
    {item' : MetaItem} (entry' : s'.items t = some item') {rid : RID} {tuple : Record} (unused : (s.versions tableOf).slot rid = none)
    (slot : (s'.versions tableOf').slot = ((s.versions tableOf).put rid ⟨t, tuple⟩).slot)
    (order : s'.order pages' = Function.update (s.order pages) t (s.order pages t ++ [rid])) :
    s'.scanned t =
      .ok ((s.order pages t).map (fun rid => (rid, s.tupleAt rid)) ++ [(rid, some tuple)]) := by
  have new : s'.tupleAt rid = some tuple := by
    apply @Database.tupleAt_of_slot s' tableOf' rid ⟨t, tuple⟩
    rw [slot]
    exact (VersionStore.slot_put ..).trans (if_pos rfl)
  have others : ∀ other ∈ s.order pages t, s'.tupleAt other = s.tupleAt other := by
    intro other member
    obtain ⟨record, stored⟩ := sound.mem_addresses.mp member
    have apart : other ≠ rid := by
      rintro rfl
      rw [unused] at stored
      cases stored
    have stored' : (s'.versions tableOf').slot other = some ⟨t, record⟩ := by
      rw [slot]
      exact (VersionStore.slot_put ..).trans ((if_neg apart).trans stored)
    rw [Database.tupleAt_of_slot stored, Database.tupleAt_of_slot stored']
  rw [sound'.scanned entry', order, Function.update_self, List.map_append, List.map_singleton, new]
  congr 2
  exact List.map_congr_left fun other member => by rw [others other member]

/-! ## INSERT -/

theorem Database.Sound.insertStores_iff_noWrap (sound : s.Sound pages tableOf) {item : MetaItem}
    (entry : s.items t = some item) (txn : Option Nat) {schema : List ColumnTypes}
    {values : List Value} (same : schema.length = values.length)
    (storable : ∀ column ∈ schema.zip values, Row.Storable column) :
    s.InsertStores txn t schema values ↔ ¬ Row.WrapsAround schema values := by
  have before := sound.scanned entry
  obtain ⟨result, s', pages', tableOf', held, ran, sound', known, -, ends⟩ :=
    run_insert sound txn t (Row.serialize schema values)
  obtain ⟨item', entry'⟩ := Option.isSome_iff_exists.mp (known (entry ▸ rfl))
  unfold Database.InsertStores
  simp only [ran, before, Except.ok.injEq, exists_eq_left']
  generalize versions : s'.versions tableOf' = m at ends
  generalize order : s'.order pages' = order' at ends
  cases ends with
  | noTable unknown =>
      rw [entry] at unknown
      cases unknown
  | unserialized _ failed =>
      refine iff_of_true ((sound.scanned_same sound' entry entry' versions order).trans before) ?_
      rintro ⟨payload, serialized, -⟩
      rw [failed] at serialized
      cases serialized
  | large _ serialized large =>
      refine iff_of_true ((sound.scanned_same sound' entry entry' versions order).trans before) ?_
      rintro ⟨payload, serialized', -, fits⟩
      obtain rfl := Except.ok.inj (serialized.symm.trans serialized')
      exact large ((size_tupleOf _ _).mpr fits)
  | @stored payload rid _ serialized fits unused =>
      have slot : (s'.versions tableOf').slot = ((s.versions tableOf).put rid
          ⟨t, tupleOf ⟨txn.getD INVALID_TX_ID, .null, 0⟩ payload⟩).slot := by
        rw [versions]
        rfl
      have after := sound.scanned_put sound' entry' unused slot order
      constructor
      · rintro ⟨rid', payload', serialized', scanned, -⟩ ⟨payload'', serialized'', large, -⟩
        obtain rfl := Except.ok.inj (serialized.symm.trans serialized')
        obtain rfl := Except.ok.inj (serialized.symm.trans serialized'')
        have same := Except.ok.inj (after.symm.trans scanned)
        rw [List.append_cancel_left_eq, List.cons.injEq, Prod.mk.injEq, Option.some.injEq] at same
        exact payload_tupleOf_of_large _ large (congrArg Record.payload same.1.2)
      · intro small
        have exact_size : Row.useSize payload < 2 ^ 16 := by
          by_contra large
          exact small ⟨payload, serialized, Nat.le_of_not_lt large, (size_tupleOf _ _).mp fits⟩
        obtain ⟨read, stop, marks⟩ := Row.deserialize_serialize same storable serialized
        rw [tupleOf_of_small _ exact_size] at after
        exact ⟨rid, payload, serialized, after, read, le_of_eq stop, marks⟩

/-- In every state that clients lead to, for every table with columns of these types and
    every row of values: INSERT throws or stores the row as it is, unless the row's size
    wraps around to one that fits a page. -/
theorem Database.Reachable.insertStores_iff (reachable : s.Reachable) {item : MetaItem}
    (entry : s.items t = some item) (txn : Option Nat) {schema : List ColumnTypes}
    {values : List Value} (same : schema.length = values.length)
    (columns : ∀ type ∈ schema, type = .integer ∨ type = .varchar)
    (built : ∀ value ∈ values, value.Built) :
    s.InsertStores txn t schema values ↔ ¬ Row.WrapsAround schema values := by
  obtain ⟨start, fresh, run⟩ := reachable
  obtain ⟨pages, tableOf, secure⟩ := run.secure fresh.secure
  apply secure.sound.insertStores_iff_noWrap entry txn same
  rintro ⟨type, value⟩ member
  obtain ⟨there, there'⟩ := List.of_mem_zip member
  exact ⟨columns type there, built value there'⟩

/-- A row whose size is 100 in 16 bits. -/
def wrappingRow : List Value := [.of (.string (List.replicate 65605 97))]

theorem Row.serialize_varchar (val : List UInt8) :
    serialize [.varchar] [.of (.string val)] = .ok (49 :: (Bytes.ofNat 8 val.length ++ val)) := by
  simp [serialize, checkValue, valueBytes, Value.of, Value.getString, VALUE_MARK, Except.map,
    pure, Except.pure, bind, Except.bind]

theorem Row.storable_varchar {val : List UInt8} (small : val.length < 2 ^ 64) :
    ∀ column ∈ [ColumnTypes.varchar].zip [Value.of (.string val)], Storable column := by
  intro column member
  obtain rfl := List.mem_singleton.mp member
  exact ⟨.inr rfl, small⟩

theorem Row.useSize_varchar (val : List UInt8) :
    useSize (49 :: (Bytes.ofNat 8 val.length ++ val)) = 31 + val.length := by
  simp only [useSize, REC_HEADER_SIZE, List.length_cons, List.length_append, Bytes.length_ofNat]
  omega

theorem wrappingRow_wrapsAround : Row.WrapsAround [.varchar] wrappingRow := by
  refine ⟨_, Row.serialize_varchar _, ?_⟩
  rw [Row.useSize_varchar, List.length_replicate]
  decide

theorem insertStores_iff_oneTable :
    oneTable.InsertStores none 1 [.integer] [.of (.int 7)] ↔
      ¬ Row.WrapsAround [.integer] [.of (.int 7)] :=
  Database.Reachable.insertStores_iff ⟨oneTable, oneTable_fresh, .refl⟩ rfl none rfl (by simp)
    (by simp [Value.Built, Value.of])

/-- INSERT takes that row, and does not store it. -/
theorem wrappingRow_not_stored : ¬ oneTable.InsertStores none 1 [.varchar] wrappingRow := by
  have entry : oneTable.items 1 = some { tableId := 1, tableName := "t" } := rfl
  have storable : ∀ column ∈ [ColumnTypes.varchar].zip wrappingRow, Row.Storable column := by
    apply Row.storable_varchar
    rw [List.length_replicate]
    omega
  rw [oneTable_fresh.sound.insertStores_iff_noWrap entry none rfl storable, not_not]
  exact wrappingRow_wrapsAround

end YourSQL
