import YourSQL.Client.ClientSession
import YourSQL.Lib.Pull
import YourSQL.Mvcc.ChainEnds

/-! # SELECT as a pipeline

The planner puts a filter over the scan of the table if there is a WHERE, and a projection on
top if there are columns to select. An executor asks the one below it for its next tuple,
`Execute` asks the topmost one and prints what it gets. All that changes from one call to the
next is the iterator of the scan. Every loop has the same fuel.
-/

namespace YourSQL

variable {s s' : Database} {pages : Nat → List Nat} {tableOf : Nat → Nat} {trx t : Nat}
  {txn : Option Nat}

/-! ## The executors -/

/-- Executors whose tuples are stored versions, and the plans that they are built from. -/
inductive RowExecutor where
  | seqScan (tableId : Nat)
  | filter (expression : Filter) (child : RowExecutor)

/-- The schema is that of the table. It goes with the tuples from the scan upwards. -/
inductive QueryExecutor where
  | rows (source : RowExecutor)
  | projection (schema : List ColumnTypes) (columnIds : List Nat) (child : RowExecutor)

/-- A tuple with `data_`, or with `query_result_`. -/
inductive QueryTuple where
  | stored (version : Record)
  | projected (values : List Value)

/-- `LogicalSelectPlan`, which `CreatePhysicalPlan` and `BuildExecutor` translate node by node. -/
def Planner.logicalSelectPlan (tableId : Nat) (schema : List ColumnTypes) (select : List Nat)
    (whereExpr : Option Filter) : QueryExecutor :=
  let root := RowExecutor.seqScan tableId
  let root :=
    match whereExpr with
    | none => root
    | some whereExpr => .filter whereExpr root
  if select = [] then .rows root else .projection schema select root

/-- `Next`. Without an iterator there is nothing. -/
def ExecutorSeqScan.next (txn : Option Nat) :
    (fuel : Nat) → Pull.Source Database String (Option TableIterator) Record
  | _, none => return (none, none)
  | fuel, some it =>
      if it.isEnd then
        return (some it, none)
      else
        match fuel with
        | 0 => throw TableIterator.outOfFuel
        | fuel + 1 => do
            match ← it.current with
            | none => next txn fuel (some (← it.advance))
            | some physical =>
                let it ← it.advance
                match ← visibleVersion txn physical with
                | none => next txn fuel (some it)
                | some version => return (some it, some version)

/-- `Next`. -/
def ExecutorFilter.next (expression : Filter)
    (child : Pull.Source Database String (Option TableIterator) Record) (fuel : Nat) :
    Pull.Source Database String (Option TableIterator) Record :=
  Pull.filter (fun candidate => do (← expression candidate.payload).getBool)
    TableIterator.outOfFuel child fuel

/-- `Next`. -/
def ExecutorProjection.next (schema : List ColumnTypes) (columnIds : List Nat)
    (child : Pull.Source Database String (Option TableIterator) Record) :
    Pull.Source Database String (Option TableIterator) QueryTuple :=
  Pull.map (fun input => return .projected (← project schema columnIds input.payload)) child

namespace RowExecutor

/-- `Open`. -/
def openIterator : RowExecutor → Exec (Option TableIterator)
  | seqScan tableId => return some (← TableIterator.create tableId)
  | filter _ child => child.openIterator

def next (txn : Option Nat) (fuel : Nat) :
    RowExecutor → Pull.Source Database String (Option TableIterator) Record
  | seqScan _ => ExecutorSeqScan.next txn fuel
  | filter expression child => ExecutorFilter.next expression (child.next txn fuel) fuel

end RowExecutor

namespace QueryExecutor

def openIterator : QueryExecutor → Exec (Option TableIterator)
  | rows source => source.openIterator
  | projection _ _ child => child.openIterator

def next (txn : Option Nat) (fuel : Nat) :
    QueryExecutor → Pull.Source Database String (Option TableIterator) QueryTuple
  | rows source => Pull.map (fun version => return .stored version) (source.next txn fuel)
  | projection schema columnIds child =>
      ExecutorProjection.next schema columnIds (child.next txn fuel)

end QueryExecutor

namespace Execute

/-- What `PrintTuple` finds to print, each value by the type of the column that stands where it
    stands. -/
def tupleValues (schema : List ColumnTypes) (tuple : QueryTuple) : Except String (List Value) := do
  let values ←
    match tuple with
    | .stored version => Row.deserialize schema version.payload
    | .projected values => pure values
  (schema.zip values).forM fun column => printValue column.1 column.2
  return values

/-- `PrintTuple`. Of a line that breaks off nothing is modelled. -/
def printLine (schema : List ColumnTypes) : QueryTuple → Program (List (List Value)) String PUnit :=
  Pull.keep (tupleValues schema)

/-- `ExecuteQuery`, over the database and what has been printed. `Close` deletes the iterator. -/
def runQuery (txn : Option Nat) (schema : List ColumnTypes) (root : QueryExecutor) :
    Program (Database × List (List Value)) String Unit := do
  let iterator ← root.openIterator.first
  let fuel := (← get).1.slotCount + 1
  let _ ← Pull.drain (printLine schema) TableIterator.outOfFuel (root.next txn fuel) fuel iterator

/-! ## What there is to print -/

/-- The line of a row that passes WHERE. -/
def lineOf (schema : List ColumnTypes) (columnIds : List Nat) (filter : Option Filter)
    (version : Record) : Except String (Option (List Value)) := do
  if ← passes filter version.payload then
    printTuple schema columnIds version.payload
    return some (← valuesToPrint schema columnIds version.payload)
  else
    return none

/-- The lines of the rows up to the first one that raises an exception, and the exception. -/
def printed (schema : List ColumnTypes) (columnIds : List Nat) (filter : Option Filter) :
    List Record → List (List Value) × Except String Unit
  | [] => ([], .ok ⟨⟩)
  | version :: versions =>
      match lineOf schema columnIds filter version with
      | .error message => ([], .error message)
      | .ok line =>
          (line.toList ++ (printed schema columnIds filter versions).1,
            (printed schema columnIds filter versions).2)

end Execute

/-! ## What the scan yields -/

namespace ExecutorSeqScan

variable {it : TableIterator} {rid : RID} {left rest : List RID} {fuel fuel' : Nat}

theorem run_next_of_end (ended : it.isEnd = true) (txn : Option Nat) (fuel : Nat) (s : Database) :
    (next txn fuel (some it)).run s = (.ok (some it, none), s) := by
  unfold next
  rw [if_pos ended]
  rfl

/-- One record, for the loop of `Next` and for the loop that takes all rows. -/
theorem run_next_record (sound : s.Sound pages tableOf)
    (stands : it.Stands s pages tableOf t (rid :: rest)) (txn : Option Nat) :
    ∃ (it' : TableIterator) (s' : Database) (shown : Except String (Option Record)),
      it'.Stands s' pages tableOf t rest ∧ s'.Sound pages tableOf ∧
      (∀ fuel, (next txn (fuel + 1) (some it)).run s =
        match shown with
        | .error e => (.error e, s')
        | .ok none => (next txn fuel (some it')).run s'
        | .ok (some version) => (.ok (some it', some version), s')) ∧
      ∀ filter rows, (round txn filter it rows).run s =
        match shown with
        | .error e => (.error e, s')
        | .ok none => (.ok (it', rows), s')
        | .ok (some version) =>
            match passes filter version.payload with
            | .error e => (.error e, s')
            | .ok isMatch => (.ok (it', if isMatch then rows ++ [version] else rows), s') := by
  obtain ⟨after, holds, -⟩ := stands.cons_inv
  obtain ⟨record, current, -⟩ := stands.run_current sound
  obtain ⟨it', s₁, advanced, stands₁, pool₁, sound₁, -⟩ := stands.run_advance sound
  have files := visibleVersion_files txn record s₁
  generalize ran : (visibleVersion txn record).run s₁ = result at files
  obtain ⟨shown, s₂⟩ := result
  have sound₂ := files.1.sound sound₁ (files.2 ▸ sound₁.consistent.pinned)
  refine ⟨it', s₂, shown, stands₁.pool files.1 files.2, sound₂, ?_, ?_⟩
  · intro fuel
    rw [next, if_neg (by simp [holds.running]), Program.run_bind_of_ok current]
    dsimp only
    rw [Program.run_bind_of_ok advanced]
    cases shown with
    | error e => exact Program.run_bind_of_error ran
    | ok shown =>
        rw [Program.run_bind_of_ok ran]
        cases shown <;> rfl
  · intro filter rows
    unfold round
    rw [Program.run_bind_of_ok current]
    dsimp only
    rw [Program.run_bind_of_ok advanced]
    cases shown with
    | error e => exact Program.run_bind_of_error ran
    | ok shown =>
        rw [Program.run_bind_of_ok ran]
        cases shown with
        | none => rfl
        | some version =>
            cases filter with
            | none => rfl
            | some filter =>
                dsimp only [passes]
                cases computed : filter version.payload with
                | error e => exact Program.run_bind_of_error (Program.run_lift _ s₂)
                | ok value =>
                    rw [Program.run_bind_of_ok (Program.run_lift _ s₂), Except.ok_bind]
                    cases decision : value.getBool with
                    | error e => exact Program.run_bind_of_error (Program.run_lift _ s₂)
                    | ok isMatch =>
                        rw [Program.run_bind_of_ok (Program.run_lift _ s₂)]
                        cases isMatch <;> rfl

/-- What the fuel is does not matter if it is enough. -/
theorem run_next_congr (sound : s.Sound pages tableOf) (stands : it.Stands s pages tableOf t left)
    (enough : left.length ≤ fuel) (enough' : left.length ≤ fuel') :
    (next txn fuel' (some it)).run s = (next txn fuel (some it)).run s := by
  induction left generalizing it s fuel fuel' with
  | nil => rw [run_next_of_end stands.nil_inv, run_next_of_end stands.nil_inv]
  | cons rid rest ih =>
      obtain ⟨fuel, rfl⟩ := Nat.exists_eq_succ_of_ne_zero (Nat.ne_zero_of_lt enough)
      obtain ⟨fuel', rfl⟩ := Nat.exists_eq_succ_of_ne_zero (Nat.ne_zero_of_lt enough')
      obtain ⟨it', s', shown, stands', sound', pulled, -⟩ := run_next_record sound stands txn
      rw [pulled, pulled, ih sound' stands' (Nat.le_of_succ_le_succ enough)
        (Nat.le_of_succ_le_succ enough')]

/-- The versions that are shown come one by one, and the loop that takes all rows takes those
    of them that pass. -/
theorem exists_yields (sound : s.Sound pages tableOf) (stands : it.Stands s pages tableOf t left)
    (txn : Option Nat) (enough : left.length ≤ fuel) :
    ∃ items ending, Pull.Yields (next txn fuel) (some it) s items ending ∧
      items.length ≤ left.length ∧
      ∀ filter rows fuel', left.length ≤ fuel' →
        let taken := Pull.chosen (Pull.tested fun version => passes filter version.payload) items ending
        (it.whileNotEnd (round txn filter) fuel' rows).run s =
          (taken.2.1.map fun _ => rows ++ taken.1.map Prod.fst, taken.2.2) := by
  induction left generalizing it s with
  | nil =>
      refine ⟨[], (.ok (some it), s), .ended (run_next_of_end stands.nil_inv txn fuel s), le_rfl, ?_⟩
      intro filter rows fuel' _
      unfold TableIterator.whileNotEnd
      rw [if_pos stands.nil_inv]
      simp [Pull.chosen, Except.map]
  | cons rid rest ih =>
      obtain ⟨after, holds, -⟩ := stands.cons_inv
      obtain ⟨it', s', shown, stands', sound', pulled, looped⟩ := run_next_record sound stands txn
      obtain ⟨fuel₁, rfl⟩ := Nat.exists_eq_succ_of_ne_zero (Nat.ne_zero_of_lt enough)
      obtain ⟨items, ending, yields, count, whole⟩ :=
        ih sound' stands' (Nat.le_of_succ_le enough)
      have unfolded : ∀ filter rows fuel', (it.whileNotEnd (round txn filter) (fuel' + 1) rows).run s =
          (round txn filter it rows >>= fun next =>
            next.1.whileNotEnd (round txn filter) fuel' next.2).run s := by
        intro filter rows fuel'
        rw [TableIterator.whileNotEnd, if_neg (by simp [holds.running])]
      have here := pulled fuel₁
      cases shown with
      | error e =>
          refine ⟨[], (.error e, s'), .raised here, Nat.zero_le _, ?_⟩
          intro filter rows fuel' enough'
          obtain ⟨fuel', rfl⟩ := Nat.exists_eq_succ_of_ne_zero (Nat.ne_zero_of_lt enough')
          rw [unfolded, Program.run_bind_of_error (looped filter rows)]
          rfl
      | ok shown =>
          cases shown with
          | none =>
              have more := @run_next_congr _ _ _ _ txn _ _ _ _ sound' stands' (Nat.le_of_succ_le_succ enough)
                (Nat.le_of_succ_le enough)
              refine ⟨items, ending, yields.congr (here.trans more.symm), Nat.le_succ_of_le count, ?_⟩
              intro filter rows fuel' enough'
              obtain ⟨fuel', rfl⟩ := Nat.exists_eq_succ_of_ne_zero (Nat.ne_zero_of_lt enough')
              rw [unfolded, Program.run_bind_of_ok (looped filter rows)]
              exact whole filter rows fuel' (Nat.le_of_succ_le_succ enough')
          | some version =>
              refine ⟨(version, s') :: items, ending, .item here yields, Nat.succ_le_succ count, ?_⟩
              intro filter rows fuel' enough'
              obtain ⟨fuel', rfl⟩ := Nat.exists_eq_succ_of_ne_zero (Nat.ne_zero_of_lt enough')
              have round := looped filter rows
              rw [unfolded]
              cases passed : passes filter version.payload with
              | error e =>
                  simp only [passed] at round
                  rw [Program.run_bind_of_error round,
                    Pull.chosen_of_error (by rw [Pull.tested, passed]; rfl)]
                  rfl
              | ok isMatch =>
                  simp only [passed] at round
                  rw [Program.run_bind_of_ok round]
                  dsimp only
                  rw [whole filter _ fuel' (Nat.le_of_succ_le_succ enough')]
                  cases isMatch with
                  | true =>
                      rw [Pull.chosen_of_some (by rw [Pull.tested, passed]; rfl)]
                      simp
                  | false =>
                      rw [Pull.chosen_of_none (by rw [Pull.tested, passed]; rfl)]
                      simp

end ExecutorSeqScan

/-! ## What the pipeline makes of it -/

/-- The tuple that the topmost executor makes of a row that passes. -/
def QueryTuple.of (schema : List ColumnTypes) (columnIds : List Nat) (version : Record) :
    Except String QueryTuple :=
  if columnIds = [] then
    return .stored version
  else
    return .projected (← ExecutorProjection.project schema columnIds version.payload)

/-- The line is printed of what is in the tuple. -/
theorem Execute.tupleValues_of (schema : List ColumnTypes) (columnIds : List Nat)
    (version : Record) :
    (QueryTuple.of schema columnIds version >>= tupleValues schema) = (do
      printTuple schema columnIds version.payload
      valuesToPrint schema columnIds version.payload) := by
  have line : ∀ values : Except String (List Value),
      (values >>= fun values => do
        (schema.zip values).forM fun column => printValue column.1 column.2
        return values) =
      (do
        let shown ← values
        (schema.zip shown).forM fun column => printValue column.1 column.2) >>= fun _ => values := by
    intro values
    cases values with
    | error e => rfl
    | ok values => rfl
  by_cases all : columnIds = []
  · simp only [QueryTuple.of, printTuple, valuesToPrint, if_pos all]
    exact line (Row.deserialize schema version.payload)
  · simp only [QueryTuple.of, printTuple, valuesToPrint, if_neg all]
    rw [← line]
    cases ExecutorProjection.project schema columnIds version.payload <;> rfl

/-- The line of a row, by way of the executors. -/
theorem Execute.lineOf_eq (schema : List ColumnTypes) (columnIds : List Nat)
    (filter : Option Filter) :
    Pull.andThen (Pull.tested fun version => passes filter version.payload)
        (Pull.andThen (fun version => (QueryTuple.of schema columnIds version).map some)
          fun tuple => (tupleValues schema tuple).map some) =
      lineOf schema columnIds filter := by
  funext version
  have line := tupleValues_of schema columnIds version
  unfold lineOf
  cases passed : passes filter version.payload with
  | error e => exact Pull.andThen_of_error (by rw [Pull.tested, passed]; rfl)
  | ok isMatch =>
      cases isMatch with
      | false => exact Pull.andThen_of_none (by rw [Pull.tested, passed]; rfl)
      | true =>
          rw [@Pull.andThen_of_some _ _ _ _ _ _ _ version (by rw [Pull.tested, passed]; rfl)]
          trans (QueryTuple.of schema columnIds version >>= tupleValues schema).map some
          · cases made : QueryTuple.of schema columnIds version with
            | error e => exact Pull.andThen_of_error (by rw [made]; rfl)
            | ok tuple => exact Pull.andThen_of_some (by rw [made]; rfl)
          · rw [line]
            cases printTuple schema columnIds version.payload with
            | error e => rfl
            | ok _ => cases valuesToPrint schema columnIds version.payload <;> rfl

section

open Pull (Yields chosen tested)

variable {iterator : Option TableIterator} {items : List (Record × Database)}
  {ending : Pull.Ending Database String (Option TableIterator)} {fuel : Nat}

/-- A projection over the rows that pass, or the rows themselves, with the lines that are
    printed of them. -/
theorem Planner.yields_logicalSelectPlan (t : Nat) (schema : List ColumnTypes)
    (columnIds : List Nat) (filter : Option Filter)
    (yields : Yields (ExecutorSeqScan.next txn fuel) iterator s items ending)
    (enough : items.length < fuel) :
    ∃ items' ending',
      Yields ((logicalSelectPlan t schema columnIds filter).next txn fuel) iterator s items' ending' ∧
      items'.length < fuel ∧
      chosen (fun tuple => (Execute.tupleValues schema tuple).map some) items' ending' =
        chosen (Execute.lineOf schema columnIds filter) items ending := by
  let test : Record → Except String Bool := fun version => passes filter version.payload
  let root : RowExecutor :=
    match filter with
    | none => .seqScan t
    | some whereExpr => .filter whereExpr (.seqScan t)
  have passing : Yields (root.next txn fuel) iterator s (chosen (tested test) items ending).1
      (chosen (tested test) items ending).2 := by
    cases filter with
    | none =>
        change Yields _ _ _ (chosen (tested fun _ => .ok true) items ending).1
          (chosen (tested fun _ => .ok true) items ending).2
        rw [Pull.chosen_all]
        exact yields
    | some whereExpr => exact yields.filter enough
  have fewer := (Pull.length_chosen_le (tested test) items ending).trans_lt enough
  have plan : (logicalSelectPlan t schema columnIds filter).next txn fuel =
      Pull.map (QueryTuple.of schema columnIds) (root.next txn fuel) := by
    unfold logicalSelectPlan QueryTuple.of
    by_cases all : columnIds = []
    · simp only [all]
      cases filter <;> rfl
    · simp only [all]
      cases filter <;> rfl
  refine ⟨_, _, plan ▸ passing.map, (Pull.length_chosen_le _ _ _).trans_lt fewer, ?_⟩
  rw [Pull.chosen_chosen, Pull.chosen_chosen, Execute.lineOf_eq]

/-- Of what a scan yields without an exception, this is printed. -/
theorem Execute.printed_eq (schema : List ColumnTypes) (columnIds : List Nat)
    (filter : Option Filter) {place : Option TableIterator} (ended : ending.1 = .ok place) :
    let result := chosen (lineOf schema columnIds filter) items ending
    printed schema columnIds filter (items.map Prod.fst) =
      (result.1.map Prod.fst, result.2.1.map fun _ => ⟨⟩) := by
  induction items with
  | nil => simp [printed, chosen, ended, Except.map]
  | cons item items ih =>
      obtain ⟨version, s⟩ := item
      cases line : lineOf schema columnIds filter version with
      | error e =>
          rw [Pull.chosen_of_error line]
          simp [printed, line, Except.map]
      | ok line' =>
          cases line' with
          | none =>
              rw [Pull.chosen_of_none line]
              simp [printed, line, ih]
          | some values =>
              rw [Pull.chosen_of_some line]
              simp [printed, line, ih]

/-- WHERE, and the printing of what passes. -/
theorem Execute.passes_consume (schema : List ColumnTypes) (columnIds : List Nat)
    (filter : Option Filter) (payload : List UInt8) :
    passes (some (consume schema columnIds filter)) payload = (do
      let isMatch ← passes filter payload
      if isMatch then
        printTuple schema columnIds payload
      return isMatch) := by
  cases filter with
  | none =>
      change (consume schema columnIds none payload >>= Value.getBool) = _
      unfold consume
      cases printTuple schema columnIds payload <;> rfl
  | some filter =>
      change (consume schema columnIds (some filter) payload >>= Value.getBool) = _
      unfold consume passes
      dsimp only
      cases filter payload with
      | error e => rfl
      | ok value =>
          rw [Except.ok_bind, Except.ok_bind]
          cases decision : value.getBool with
          | error e => rfl
          | ok isMatch =>
              cases isMatch with
              | false => exact decision
              | true =>
                  cases printTuple schema columnIds payload with
                  | error e => rfl
                  | ok _ => exact decision

/-- What can be printed has values. -/
theorem Execute.exists_values {schema : List ColumnTypes} {columnIds : List Nat}
    {payload : List UInt8} (printed : printTuple schema columnIds payload = .ok ⟨⟩) :
    ∃ values, valuesToPrint schema columnIds payload = .ok values := by
  by_cases all : columnIds = []
  · simp only [printTuple, valuesToPrint, if_pos all] at printed ⊢
    obtain ⟨values, read, -⟩ := Except.bind_eq_ok.mp printed
    exact ⟨values, read⟩
  · simp only [printTuple, valuesToPrint, if_neg all] at printed ⊢
    obtain ⟨values, read, -⟩ := Except.bind_eq_ok.mp printed
    exact ⟨values, read⟩

/-- The line of a row is there if WHERE and the printing in one let the row pass. -/
theorem Execute.lineOf_eq_map (schema : List ColumnTypes) (columnIds : List Nat)
    (filter : Option Filter) :
    lineOf schema columnIds filter = fun version =>
      (tested (fun version => passes (some (consume schema columnIds filter)) version.payload)
        version).map (Option.map fun version =>
          ((valuesToPrint schema columnIds version.payload).toOption).getD []) := by
  funext version
  unfold lineOf tested
  dsimp only
  rw [passes_consume]
  cases passes filter version.payload with
  | error e => rfl
  | ok isMatch =>
      cases isMatch with
      | false => rfl
      | true =>
          cases shown : printTuple schema columnIds version.payload with
          | error e => rfl
          | ok _ =>
              obtain ⟨values, read⟩ := exists_values shown
              simp [read, Except.map, Except.toOption]

/-- The rows that pass are printed with their values. -/
theorem Execute.filterMap_values (schema : List ColumnTypes) (columnIds : List Nat)
    (filter : Option Filter) :
    ((chosen (tested fun version => passes (some (consume schema columnIds filter)) version.payload)
      items ending).1.map Prod.fst).filterMap (fun version =>
        (valuesToPrint schema columnIds version.payload).toOption) =
      (chosen (lineOf schema columnIds filter) items ending).1.map Prod.fst := by
  rw [lineOf_eq_map, Pull.chosen_map, List.filterMap_map, List.map_map, ← List.filterMap_eq_map]
  refine List.filterMap_congr fun item member => ?_
  obtain ⟨version, s⟩ := item
  obtain ⟨row, taken⟩ := Pull.exists_of_mem_chosen member
  obtain ⟨rfl, passed⟩ := Pull.tested_eq_some.mp taken
  rw [passes_consume] at passed
  obtain ⟨isMatch, -, shown⟩ := Except.bind_eq_ok.mp passed
  cases isMatch with
  | false => cases shown
  | true =>
      obtain ⟨_, printed, -⟩ := Except.bind_eq_ok.mp shown
      obtain ⟨values, read⟩ := exists_values printed
      simp [read, Except.toOption]

end

/-! ## The pipeline and the statement -/

theorem Planner.openIterator_logicalSelectPlan (t : Nat) (schema : List ColumnTypes)
    (columnIds : List Nat) (filter : Option Filter) :
    (logicalSelectPlan t schema columnIds filter).openIterator =
      (do return some (← TableIterator.create t)) := by
  unfold logicalSelectPlan
  by_cases all : columnIds = []
  · simp only [all]
    cases filter <;> rfl
  · simp only [if_neg all]
    cases filter <;> rfl

section

variable {it : TableIterator} {items : List (Record × Database)}
  {ending : Pull.Ending Database String (Option TableIterator)}

theorem Execute.run_runQuery (schema : List ColumnTypes) (columnIds : List Nat)
    (filter : Option Filter) (created : (TableIterator.create t).run s = (.ok it, s'))
    (yields : Pull.Yields (ExecutorSeqScan.next txn (s'.slotCount + 1)) (some it) s' items ending)
    (enough : items.length < s'.slotCount + 1) :
    let lines := Pull.chosen (lineOf schema columnIds filter) items ending
    (runQuery txn schema (Planner.logicalSelectPlan t schema columnIds filter)).run (s, []) =
      (lines.2.1.map fun _ => ⟨⟩, (lines.2.2, lines.1.map Prod.fst)) := by
  let root := Planner.logicalSelectPlan t schema columnIds filter
  have opened : root.openIterator.run s = (.ok (some it), s') := by
    rw [Planner.openIterator_logicalSelectPlan, Program.run_bind_of_ok created]
    rfl
  obtain ⟨items', ending', yields', fewer, lines⟩ :=
    Planner.yields_logicalSelectPlan t schema columnIds filter yields enough
  have drained : (Pull.drain (printLine schema) TableIterator.outOfFuel
      (root.next txn (s'.slotCount + 1)) (s'.slotCount + 1) (some it)).run (s', []) = _ :=
    yields'.run_drain_keep (tupleValues schema) TableIterator.outOfFuel fewer []
  rw [lines] at drained
  unfold runQuery
  rw [Program.run_bind_of_ok (Program.run_first opened []), Program.run_get_bind, Program.run_bind]
  dsimp only
  rw [drained]
  cases (Pull.chosen (lineOf schema columnIds filter) items ending).2.1 <;> rfl

/-- The loop over all rows, by what the scan yields. -/
theorem Statement.run_print_select (trx : Nat) (schema : List ColumnTypes) (columnIds : List Nat)
    (filter : Option Filter)
    (selected : (ExecutorSeqScan.select (some trx) t
        (some (Execute.consume schema columnIds filter))).run s =
      let taken := Pull.chosen (Pull.tested fun version =>
        passes (some (Execute.consume schema columnIds filter)) version.payload) items ending
      (taken.2.1.map fun _ => taken.1.map Prod.fst, taken.2.2)) :
    let lines := Pull.chosen (Execute.lineOf schema columnIds filter) items ending
    ((Statement.select t schema columnIds filter).print trx).run s =
      (lines.2.1.map fun _ => .rows (lines.1.map Prod.fst), lines.2.2) := by
  intro lines
  have values := @Execute.filterMap_values items ending schema columnIds filter
  have same : lines.2 = (Pull.chosen (Pull.tested fun version =>
      passes (some (Execute.consume schema columnIds filter)) version.payload) items ending).2 := by
    dsimp only [lines]
    rw [Execute.lineOf_eq_map, Pull.chosen_map]
  unfold print
  rw [Program.run_bind, selected, same]
  dsimp only
  cases (Pull.chosen (Pull.tested fun version =>
      passes (some (Execute.consume schema columnIds filter)) version.payload) items ending).2.1 with
  | error e => rfl
  | ok place =>
      rw [Except.map, Except.map]
      dsimp only
      rw [values]
      rfl

end

/-- To a transaction under way a scan without a WHERE raises no exception. -/
theorem Database.Reachable.exists_select_all (reachable : s.Reachable)
    (active : trx ∈ s.txnManager.activeTxns) {item : MetaItem} (entry : s.items t = some item) :
    ∃ rows, ((ExecutorSeqScan.select (some trx) t none).run s).1 = .ok rows := by
  obtain ⟨pages, tableOf, secure, -⟩ := reachable.threaded
  have ends := wp_select_pool secure.sound (some trx) t none
  unfold Program.wp at ends
  generalize ran : (ExecutorSeqScan.select (some trx) t none).run s = result at ends
  obtain ⟨message | rows, u⟩ := result
  · obtain ⟨-, ⟨missing, -⟩ | ⟨rid, rest, held, -, stopped⟩⟩ := ends
    · rw [entry] at missing
      cases missing
    · obtain ⟨record, found, fails⟩ := stopped.fails
      obtain ⟨shown, -, iff⟩ := reachable.readFails_iff active none found
      obtain ⟨version, -, message, raises⟩ := iff.mp fails
      cases raises
  · exact ⟨rows, rfl⟩

end YourSQL
