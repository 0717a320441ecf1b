import YourSQL.Log.LogRecord
import YourSQL.Storage.LogDiskManager

/-! # Appending behind a torn tail

A crash can cut the log inside a record. The next process appends behind the cut
without truncating it, and the reader takes the torn record and the bytes that
follow for one record. What it returns is right in one case only: the torn tail
is empty, or nothing follows, or the new bytes happen to repeat the torn ones.
-/

namespace YourSQL.TornTail

/-- The records one `LogBuffer` hands to the disk in one write. -/
abbrev Batch := List LogRecord

/-- One process appends its batches to the log it finds. -/
def appendRun (existing : Option (List UInt8)) (batches : List Batch) : LogDiskManager :=
  (LogDiskManager.openFile existing).writes (batches.map recordFraming.encodeAll)

/-- Later processes, each on the file its predecessor left. -/
def appendRuns (disk : LogDiskManager) (runs : List (List Batch)) : LogDiskManager :=
  runs.foldl (fun found batches => appendRun (some found.readAll) batches) disk

/-- A run on a new file, a crash that keeps `cut` bytes of it, and later runs. -/
def crashThenReopen (firstRun : List Batch) (cut : Nat) (laterRuns : List (List Batch)) :
    LogDiskManager :=
  appendRuns (.openFile (some ((appendRun none firstRun).readAll.take cut))) laterRuns

/-- The new bytes repeat the torn tail, and what is over at the end is no record. -/
def Repeats (torn later : List UInt8) : Prop :=
  later <+: torn ++ later ∧ recordFraming.Incomplete ((torn ++ later).drop later.length)

instance (torn later : List UInt8) : Decidable (Repeats torn later) := by
  unfold Repeats Framing.Incomplete
  infer_instance

theorem flatten_encodeAll (batches : List Batch) :
    (batches.map recordFraming.encodeAll).flatten = recordFraming.encodeAll batches.flatten := by
  induction batches with
  | nil => rfl
  | cons batch rest ih => simp [ih]

@[simp] theorem appendRun_file (existing : Option (List UInt8)) (batches : List Batch) :
    (appendRun existing batches).file =
      existing.getD [] ++ recordFraming.encodeAll batches.flatten := by
  simp [appendRun, flatten_encodeAll, LogDiskManager.openFile]

/-- Later runs leave the file as it is and append their records behind it. -/
@[simp] theorem appendRuns_file (disk : LogDiskManager) (runs : List (List Batch)) :
    (appendRuns disk runs).file = disk.file ++ recordFraming.encodeAll runs.flatten.flatten := by
  induction runs generalizing disk with
  | nil => simp [appendRuns]
  | cons batches rest ih =>
      have step : appendRuns disk (batches :: rest) =
          appendRuns (appendRun (some disk.readAll) batches) rest := rfl
      rw [step, ih, appendRun_file]
      simp [List.append_assoc]

theorem crashThenReopen_file (firstRun : List Batch) (cut : Nat) (laterRuns : List (List Batch)) :
    (crashThenReopen firstRun cut laterRuns).file =
      (recordFraming.encodeAll firstRun.flatten).take cut ++
        recordFraming.encodeAll laterRuns.flatten.flatten := by
  simp [crashThenReopen]

theorem repeats_iff (torn later : List UInt8) :
    Repeats torn later ↔
      ∃ rest, recordFraming.Incomplete rest ∧ torn ++ later = later ++ rest := by
  constructor
  · rintro ⟨⟨rest, whole⟩, incomplete⟩
    refine ⟨rest, ?_, whole.symm⟩
    rwa [← whole, List.drop_left] at incomplete
  · rintro ⟨rest, incomplete, whole⟩
    refine ⟨⟨rest, whole.symm⟩, ?_⟩
    rwa [whole, List.drop_left]

/-- The log is read back as the surviving records and all later ones exactly when the
    cut left nothing torn, or nothing was appended, or the bytes happen to repeat. -/
theorem readLog_crashThenReopen_iff (firstRun : List Batch) (cut : Nat)
    (laterRuns : List (List Batch)) :
    readLog (crashThenReopen firstRun cut laterRuns).readAll =
        recordFraming.survivors firstRun.flatten cut ++ laterRuns.flatten.flatten ↔
      recordFraming.tornTail firstRun.flatten cut = [] ∨
      laterRuns.flatten.flatten = [] ∨
      Repeats (recordFraming.tornTail firstRun.flatten cut)
        (recordFraming.encodeAll laterRuns.flatten.flatten) := by
  have torn := recordFraming.incomplete_tornTail firstRun.flatten cut
  have parsed : readLog (crashThenReopen firstRun cut laterRuns).readAll =
        recordFraming.survivors firstRun.flatten cut ++ laterRuns.flatten.flatten ↔
      Repeats (recordFraming.tornTail firstRun.flatten cut)
        (recordFraming.encodeAll laterRuns.flatten.flatten) := by
    rw [LogDiskManager.readAll_eq, crashThenReopen_file, readLog_eq_parse, repeats_iff]
    exact recordFraming.parse_torn_append_iff _ _ _ (Nat.lt_succ_self _)
  rw [parsed]
  constructor
  · exact fun repeated => Or.inr (Or.inr repeated)
  · rintro (clean | nothing | repeated)
    · rw [clean]
      exact ⟨List.prefix_rfl, by simpa using recordFraming.incomplete_nil⟩
    · rw [nothing]
      exact ⟨List.nil_prefix, by simpa using torn⟩
    · exact repeated

/-- A row insertion with one of its two payload bytes lost, and the commit that the
    next process appends: its first byte completes the torn record and it is lost. -/
def tornInsert : LogRecord where
  lsn := 1
  txId := 1
  type := .insertRow
  payload := [7, 8]
  payloadSize_lt := by decide

def commitAfterRestart : LogRecord where
  lsn := 1
  txId := 1
  type := .commit
  payload := []
  payloadSize_lt := LogRecord.noPayload_lt

theorem readLog_loses_commit :
    readLog (crashThenReopen [[tornInsert]] 22 [[[commitAfterRestart]]]).readAll ≠
      recordFraming.survivors [tornInsert] 22 ++ [commitAfterRestart] := by
  decide

end YourSQL.TornTail
