import YourSQL.Executor.Statements

/-! # Runs of commands

What clients ask of a process: the ends of transactions, and statements, each under
the transaction it belongs to. Commands of different clients follow one another in
any order. A command that raises an exception leaves what it has done so far.
-/

namespace YourSQL

inductive Command where
  | begin
  | refreshReadView (id : Nat)
  | commit (id : Nat)
  | abort (id : Nat)
  | insert (txn : Option Nat) (tableId : Nat) (row : Except String (List UInt8))
  | delete (txn : Option Nat) (tableId : Nat) (filter : Option Filter)
  | update (txn : Option Nat) (tableId : Nat) (schema : List ColumnTypes)
      (clauses : List ExecutorUpdate.SetClause) (filter : Option Filter)
  | select (txn : Option Nat) (tableId : Nat) (filter : Option Filter)

namespace Command

/-- The state in which the command leaves the database. -/
def perform (command : Command) (s : Database) : Database :=
  match command with
  | begin => (beginTransaction.run s).2
  | refreshReadView id => ((YourSQL.refreshReadView id).run s).2
  | commit id => ((commitTransaction id).run s).2
  | abort id => ((abortTransaction id).run s).2
  | insert txn tableId row => ((ExecutorInsert.insert txn tableId row).run s).2
  | delete txn tableId filter => ((ExecutorDelete.delete txn tableId filter).run s).2
  | update txn tableId schema clauses filter =>
      ((ExecutorUpdate.update txn tableId schema clauses filter).run s).2
  | select txn tableId filter => ((ExecutorSeqScan.select txn tableId filter).run s).2

end Command

/-- The state after a run of commands. -/
def Database.performAll (s : Database) (commands : List Command) : Database :=
  commands.foldl (fun s command => Command.perform command s) s

@[simp] theorem Database.performAll_nil (s : Database) : s.performAll [] = s := rfl

@[simp] theorem Database.performAll_snoc (s : Database) (commands : List Command)
    (command : Command) :
    s.performAll (commands ++ [command]) = command.perform (s.performAll commands) := by
  simp [performAll]

/-- What every command preserves holds after every run. -/
theorem Database.performAll_invariant {inv : Database → Prop} {s : Database} (start : inv s)
    (each : ∀ (command : Command) t, inv t → inv (command.perform t)) (commands : List Command) :
    inv (s.performAll commands) := by
  induction commands using List.reverseRecOn with
  | nil => exact start
  | append_singleton commands command ih =>
      rw [performAll_snoc]
      exact each command _ ih

end YourSQL
