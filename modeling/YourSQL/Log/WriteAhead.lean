import YourSQL.Executor.Command

/-! # Pages and log records on their way to disk

The rule is that a page reaches the data file after the log records of its changes
have reached the log file. Every row change appends its record to the log buffer and
flushes its page at once; what empties the buffer is the end of a transaction or a
record that does not fit. So the rule holds in the runs that change no row, and no
run that changes one keeps it.
-/

namespace YourSQL.WriteAhead

/-- The log file after some disk writes. -/
def logFile (io : List DiskWrite) : List LogEntry :=
  io.flatMap fun
    | .log entries => entries
    | _ => []

/-- The last copy of a page in the data file. -/
def dataFile (io : List DiskWrite) (p : Nat) : Option PageData :=
  io.foldl (fun copy write => match write with
    | .page id data => if id = p then some data else copy
    | _ => copy) none

/-- The records of all changes that a page in the data file contains are logged. -/
def Logged (io : List DiskWrite) : Prop :=
  ∀ p image, dataFile io p = some (.table image) →
    ∀ n, 1 ≤ n → n ≤ image.header.lsn → ∃ entry ∈ logFile io, entry.lsn = n

/-- The rule held between any two disk writes so far. -/
def Obeyed (s : Database) : Prop := ∀ k, Logged (s.io.take k)

/-- A record of a row change went to the log buffer. -/
def RowLogged (s : Database) : Prop :=
  ∃ log entry, s.log = some log ∧ entry ∈ logFile s.io ++ log.pending ∧
    (entry.type = .insertRow ∨ entry.type = .deleteRow)

def Event.changesRow : Event → Bool
  | .insert .. | .delete .. | .replace .. => true
  | .view _ | .commit _ | .abort _ => false

/-- A statement has changed a row. -/
def RowChanged (s : Database) : Prop := ∃ event ∈ s.journal, Event.changesRow event = true

@[simp] theorem logFile_append (io io' : List DiskWrite) :
    logFile (io ++ io') = logFile io ++ logFile io' := by
  simp [logFile]

@[simp] theorem logFile_log (entries : List LogEntry) : logFile [.log entries] = entries := by
  simp [logFile]

@[simp] theorem logFile_page (id : Nat) (data : PageData) : logFile [.page id data] = [] := rfl

@[simp] theorem logFile_metaPage (items : Nat → Option MetaItem) :
    logFile [.metaPage items] = [] := rfl

theorem dataFile_snoc_page (io : List DiskWrite) (p : Nat) (data : PageData) :
    dataFile (io ++ [.page p data]) p = some data := by
  simp [dataFile]

/-- What is in the data file was written. -/
theorem mem_of_dataFile {io : List DiskWrite} {p : Nat} {data : PageData}
    (found : dataFile io p = some data) : .page p data ∈ io := by
  induction io using List.reverseRecOn with
  | nil => simp [dataFile] at found
  | append_singleton io write ih =>
      have earlier : dataFile io p = some data → .page p data ∈ io ++ [write] :=
        fun found => List.mem_append_left _ (ih found)
      cases write with
      | page id data' =>
          by_cases same : id = p
          · subst same
            rw [dataFile_snoc_page, Option.some.injEq] at found
            subst found
            simp
          · apply earlier
            simpa [dataFile, same] using found
      | metaPage items => exact earlier (by simpa [dataFile] using found)
      | log entries => exact earlier (by simpa [dataFile] using found)

/-- A breach of the rule stays one. -/
theorem not_obeyed_append {s t : Database} (broken : ¬ Obeyed s)
    (grown : ∃ writes, t.io = s.io ++ writes) : ¬ Obeyed t := by
  obtain ⟨writes, grown⟩ := grown
  intro rule
  apply broken
  intro k
  have holds := rule (min k s.io.length)
  rw [grown, List.take_append_of_le_length (Nat.min_le_right ..)] at holds
  by_cases short : k ≤ s.io.length
  · rwa [Nat.min_eq_left short] at holds
  · rw [Nat.min_eq_right (by omega), List.take_length] at holds
    rwa [List.take_of_length_le (by omega)]

/-- What holds throughout a run. `lsn` is that of a header in the hands of a
    `TablePage` object. -/
structure Inv (lsn : Nat) (s : Database) : Prop where
  numbered : ∃ log, s.log = some log ∧ 1 ≤ log.nextLsn ∧
    ∀ entry ∈ logFile s.io ++ log.pending, entry.lsn < log.nextLsn
  /-- As long as no row change is logged, no page carries an LSN. -/
  clean : RowLogged s ∨ (lsn = 0 ∧
    (∀ p image, s.page p = .table image → image.header.lsn = 0) ∧
    ∀ p image, .page p (.table image) ∈ s.io → image.header.lsn = 0)
  broken : RowChanged s → ¬ Obeyed s

/-- The rule holds while no row change is logged. -/
theorem Inv.obeyed {lsn : Nat} {s : Database} (inv : Inv lsn s) (none : ¬ RowLogged s) :
    Obeyed s := by
  obtain ⟨_, _, written⟩ := inv.clean.resolve_left none
  intro k p image found n positive below
  have zero := written p image (List.mem_of_mem_take (mem_of_dataFile found))
  omega

/-! ## What preserves the invariant -/

variable {lsn : Nat} {s t : Database}

theorem Inv.zero (inv : Inv lsn s) : Inv 0 s where
  numbered := inv.numbered
  clean := inv.clean.imp_right fun ⟨_, rest⟩ => ⟨rfl, rest⟩
  broken := inv.broken

theorem Inv.congr (inv : Inv lsn s) (page : t.page = s.page) (io : t.io = s.io)
    (log : t.log = s.log) (journal : t.journal = s.journal) : Inv lsn t where
  numbered := by
    rw [log, io]
    exact inv.numbered
  clean := by
    unfold RowLogged
    rw [log, io, page]
    exact inv.clean
  broken := by
    unfold RowChanged Obeyed
    rw [io, journal]
    exact inv.broken

/-- A page with no other LSN than the one it had, or the object's. -/
theorem Inv.setPage (inv : Inv lsn s) (p : Nat) {data : PageData}
    (same : ∀ image, data = .table image →
      image.header.lsn = (s.page p).asTable.header.lsn ∨ image.header.lsn = lsn ∨
        image.header.lsn = 0) :
    Inv lsn (s.setPage p data) where
  numbered := inv.numbered
  clean := by
    rcases inv.clean with logged | ⟨zero, pages, written⟩
    · exact .inl logged
    · refine .inr ⟨zero, ?_, written⟩
      intro q image page
      by_cases here : q = p
      · subst here
        rw [Database.page_setPage_self] at page
        rcases same image page with old | object | new
        · rw [old]
          cases before : s.page q with
          | table image => exact pages q image before
          | blank => rfl
          | undo image => rfl
        · rw [object, zero]
        · exact new
      · apply pages q
        simpa [Database.setPage, here] using page
  broken := inv.broken

theorem Inv.write (inv : Inv lsn s) (write : DiskWrite) (silent : logFile [write] = [])
    (page : ∀ p image, write = .page p (.table image) → s.page p = .table image)
    (grown : t.io = s.io ++ [write]) (same : t.page = s.page) (log : t.log = s.log)
    (journal : t.journal = s.journal) : Inv lsn t where
  numbered := by
    rw [log, grown, logFile_append, silent, List.append_nil]
    exact inv.numbered
  clean := by
    unfold RowLogged
    rw [log, grown, logFile_append, silent, List.append_nil, same]
    refine inv.clean.imp_right fun ⟨zero, pages, written⟩ => ⟨zero, pages, ?_⟩
    intro p image member
    rw [List.mem_append, List.mem_singleton] at member
    rcases member with earlier | now
    · exact written p image earlier
    · exact pages p image (page p image now.symm)
  broken := by
    unfold RowChanged
    rw [journal]
    exact fun changed => not_obeyed_append (inv.broken changed) ⟨_, grown⟩

theorem Inv.writeBack (inv : Inv lsn s) (id : Nat) : Inv lsn (s.writeBack id) := by
  unfold Database.writeBack
  split
  · refine inv.write (.page id (s.page id)) rfl ?_ rfl rfl rfl rfl
    intro p image same
    obtain ⟨rfl, page⟩ := DiskWrite.page.inj same
    exact page
  · exact inv

theorem Inv.writeMeta (inv : Inv lsn s) : Inv lsn s.writeMeta :=
  inv.write (.metaPage s.items) rfl (fun _ _ same => nomatch same) rfl rfl rfl rfl

theorem Inv.enter (inv : Inv lsn s) (event : Event)
    (ok : Event.changesRow event = true → ¬ Obeyed s) : Inv lsn (s.enter event) where
  numbered := inv.numbered
  clean := inv.clean
  broken := by
    rintro ⟨event', member, changes⟩
    simp only [Database.enter, List.mem_append, List.mem_singleton] at member
    rcases member with earlier | rfl
    · exact inv.broken ⟨event', earlier, changes⟩
    · exact ok changes

/-! ## Pool, meta page and log -/

theorem preserves_fetchPage (id : Nat) : (fetchPage id).Preserves (Inv lsn) :=
  Program.preserves_modify fun _ inv => inv.congr rfl rfl rfl rfl

theorem preserves_newPage : newPage.Preserves (Inv lsn) := by
  apply Program.preserves_get_bind
  intro s inv
  have blank : Inv lsn (s.setPage s.nextPageId .blank) := inv.setPage _ fun _ same => nomatch same
  exact blank.congr rfl rfl rfl rfl

theorem preserves_flush (id : Nat) : (flush id).Preserves (Inv lsn) := by
  apply Program.preserves_get_bind
  intro s inv
  split
  · exact inv
  · exact inv.writeBack id

theorem preserves_release (id : Nat) : (release id).Preserves (Inv lsn) := by
  apply Program.preserves_get_bind
  intro s inv
  split
  · exact inv
  · have unpinned : Inv lsn (s.unpin id) := inv.congr rfl rfl rfl rfl
    exact unpinned.writeBack id

theorem preserves_updateItem (tableId : Nat) (message : String) (change : MetaItem → MetaItem) :
    (updateItem tableId message change).Preserves (Inv lsn) := by
  apply Program.preserves_get_bind
  intro s inv
  cases s.items tableId with
  | none => exact inv
  | some item =>
      have set : Inv lsn (s.setItem tableId (change item)) := inv.congr rfl rfl rfl rfl
      have flushed : flushMeta.Preserves (Inv lsn) := by
        apply Program.preserves_get_bind
        intro s inv
        split
        · exact inv
        · exact inv.writeMeta
      exact flushed _ set

theorem preserves_getFirstPageId (tableId : Nat) :
    (getFirstPageId tableId).Preserves (Inv lsn) := by
  apply Program.preserves_get_bind
  intro s inv
  cases s.items tableId with
  | none => exact inv
  | some item => exact inv

theorem preserves_touchPage (id : Nat) : (touchPage id).Preserves (Inv lsn) := by
  apply Program.preserves_get_bind
  intro s inv
  split
  · exact inv
  · exact inv

theorem preserves_flushLog : flushLog.Preserves (Inv lsn) := by
  apply Program.preserves_get_bind
  intro s inv
  cases found : s.log with
  | none => exact inv
  | some log =>
      by_cases empty : log.pending = []
      · simpa [empty] using inv
      · simp only [empty, if_false]
        obtain ⟨log', found', positive, numbers⟩ := inv.numbered
        obtain rfl : log = log' := Option.some.inj (found.symm.trans found')
        have file : logFile (s.io ++ [.log log.pending]) ++ [] = logFile s.io ++ log.pending := by
          simp
        refine ⟨⟨{ log with pending := [] }, rfl, positive, ?_⟩, ?_, ?_⟩
        · intro entry member
          rw [← file] at numbers
          exact numbers entry member
        · refine inv.clean.imp ?_ fun ⟨zero, pages, written⟩ => ⟨zero, pages, ?_⟩
          · rintro ⟨log'', entry, found'', member, row⟩
            obtain rfl : log = log'' := Option.some.inj (found.symm.trans found'')
            rw [← file] at member
            exact ⟨_, entry, rfl, member, row⟩
          · intro p image member
            apply written p image
            simpa [Database.writeLog, Database.setLog] using member
        · exact fun changed => not_obeyed_append (inv.broken changed) ⟨_, rfl⟩

/-- Room is made in the buffer: records move from the buffer to the file. -/
theorem flushLog_moves {log : LogManager} (found : s.log = some log) :
    ∃ t pending, flushLog.run s = (.ok ⟨⟩, t) ∧ t.log = some { log with pending := pending } ∧
      logFile t.io ++ pending = logFile s.io ++ log.pending ∧ (∃ writes, t.io = s.io ++ writes) ∧
      t.page = s.page ∧ t.dirty = s.dirty ∧ t.journal = s.journal := by
  unfold flushLog
  simp only [Program.run_get_bind, found]
  by_cases empty : log.pending = []
  · exact ⟨s, log.pending, by simp [empty], found, rfl, ⟨[], by simp⟩, rfl, rfl, rfl⟩
  · refine ⟨(s.writeLog log.pending).setLog { log with pending := [] }, [], ?_, rfl, ?_, ⟨_, rfl⟩,
      rfl, rfl, rfl⟩
    · simp [empty]
    · simp [Database.writeLog, Database.setLog]

/-- An LSN was drawn, and the record that got it is still in the buffer. -/
def Pending (n : Nat) (s : Database) : Prop := 1 ≤ n ∧ ∀ entry ∈ logFile s.io, entry.lsn ≠ n

theorem Inv.push (inv : Inv lsn s) {log : LogManager} (found : s.log = some log)
    {entry : LogEntry} (below : entry.lsn < log.nextLsn) :
    Inv lsn (s.setLog { log with pending := log.pending ++ [entry] }) := by
  obtain ⟨log', found', positive, numbers⟩ := inv.numbered
  obtain rfl : log = log' := Option.some.inj (found.symm.trans found')
  refine ⟨⟨_, rfl, positive, fun other member => ?_⟩, inv.clean.imp_left ?_, inv.broken⟩
  · rw [← List.append_assoc, List.mem_append, List.mem_singleton] at member
    rcases member with earlier | rfl
    · exact numbers other earlier
    · exact below
  · rintro ⟨log', other, found', member, row⟩
    obtain rfl : log = log' := Option.some.inj (found.symm.trans found')
    refine ⟨_, other, rfl, ?_, row⟩
    rw [← List.append_assoc, List.mem_append]
    exact .inl member

theorem wp_appendLogRecord (inv : Inv lsn s) (txId : Nat) (type : LogRecordType)
    (payload : Option LogDataPayload) :
    (appendLogRecord txId type payload).wp
      (fun n t => Inv lsn t ∧ Pending n t ∧
        (type = .insertRow ∨ type = .deleteRow → RowLogged t))
      (fun _ t => Inv lsn t) s := by
  obtain ⟨log, found, positive, numbers⟩ := inv.numbered
  let entry : LogEntry := ⟨log.nextLsn, txId, type, payload⟩
  let drawn := s.setLog { log with nextLsn := log.nextLsn + 1 }
  have invDrawn : Inv lsn drawn := by
    refine ⟨⟨_, rfl, by simp, fun entry member => ?_⟩, inv.clean.imp_left ?_, inv.broken⟩
    · have := numbers entry member
      simp only
      omega
    · rintro ⟨log', entry, found', member, row⟩
      obtain rfl : log = log' := Option.some.inj (found.symm.trans found')
      exact ⟨_, entry, rfl, member, row⟩
  -- whatever was moved to the file for want of space, the new record is not
  have pushed : ∀ u pending,
      u.log = some { log with nextLsn := log.nextLsn + 1, pending := pending } →
      logFile u.io ++ pending = logFile s.io ++ log.pending → Inv lsn u →
      Inv lsn { u with log := u.log.map fun log => { log with pending := log.pending ++ [entry] } } ∧
        Pending log.nextLsn u ∧ (type = .insertRow ∨ type = .deleteRow → RowLogged
          { u with log := u.log.map fun log => { log with pending := log.pending ++ [entry] } }) := by
    intro u pending found' moved invU
    refine ⟨?_, ⟨positive, fun other member => ?_⟩, fun row => ?_⟩
    · have next := @Inv.push lsn u invU _ found' entry (by simp [entry])
      rw [found']
      exact next
    · have := numbers other (moved ▸ List.mem_append_left _ member)
      omega
    · rw [found']
      exact ⟨_, entry, rfl, by simp, row⟩
  unfold appendLogRecord
  simp only [Program.wp_bind, Program.wp_get, found]
  rw [Program.wp_modify]
  split
  · exact invDrawn
  · split
    · obtain ⟨u, pending, ran, found', moved, -, -, -, -⟩ := @flushLog_moves drawn _ rfl
      have invU : Inv lsn u := by
        have := preserves_flushLog drawn invDrawn
        rwa [ran] at this
      rw [Program.wp_bind, Program.wp_of_ok ran]
      exact pushed u pending found' moved invU
    · exact pushed drawn log.pending rfl rfl invDrawn

/-! ## Row changes -/

/-- The page waits for its flush with the LSN of a record that is not in the file. -/
def Ahead (p : Nat) (s : Database) : Prop :=
  s.dirty p = true ∧ ∃ image, s.page p = .table image ∧ Pending image.header.lsn s

theorem wp_logAndSetLsn (inv : Inv lsn s) (txn : Option Nat) {type : LogRecordType}
    (row : type = .insertRow ∨ type = .deleteRow) (tableId : Nat) (rid : RID)
    (image : Option Record) (tp : TablePage) :
    (logAndSetLsn txn type tableId rid image tp).wp
      (fun tp' t => tp'.pageId = tp.pageId ∧ tp'.tableId = tp.tableId ∧ Inv 0 t ∧
        Ahead tp.pageId t)
      (fun _ t => Inv 0 t) s := by
  unfold logAndSetLsn logDataChange
  rw [Program.wp_bind]
  apply (wp_appendLogRecord inv _ type _).mono
  · rintro n t ⟨inv, pending, logged⟩
    have positive : n ≠ INVALID_LSN := by
      have := pending.1
      simp only [INVALID_LSN]
      omega
    rw [if_neg positive]
    let image : TableImage :=
      { (t.page tp.pageId).asTable with header := { tp.header with lsn := n } }
    have invSet : Inv 0 (t.setPage tp.pageId (.table image)) :=
      ⟨inv.numbered, .inl (logged row), inv.broken⟩
    refine ⟨rfl, rfl, invSet, ?_, image, Database.page_setPage_self .., pending⟩
    exact Function.update_self ..
  · exact fun _ t inv => inv.zero

/-- The flush puts the page into the data file too early. -/
theorem wp_flush_ahead {p : Nat} (inv : Inv 0 s) (ahead : Ahead p s) :
    (flush p).wp (fun _ t => Inv 0 t ∧ ¬ Obeyed t) (fun _ t => Inv 0 t) s := by
  obtain ⟨dirty, image, page, positive, pending⟩ := ahead
  unfold flush
  simp only [Program.wp_bind, Program.wp_get]
  split
  · exact inv
  · refine ⟨inv.writeBack p, fun obeyed => ?_⟩
    have grown : (s.writeBack p).io = s.io ++ [.page p (s.page p)] := by
      simp [Database.writeBack, dirty]
    have now := obeyed (s.writeBack p).io.length
    rw [List.take_length, grown] at now
    obtain ⟨entry, member, same⟩ := now p image (by rw [dataFile_snoc_page, page]) _ positive le_rfl
    rw [logFile_append, logFile_page, List.append_nil] at member
    exact pending entry member same

theorem preserves_pushWrite (txn : Option Nat) (wr : WriteRecord) :
    (pushWrite txn wr).Preserves fun s => Inv 0 s ∧ Ahead p s := by
  cases txn with
  | none => exact Program.preserves_pure _
  | some id => exact Program.preserves_modify fun _ ⟨inv, ahead⟩ => ⟨inv.congr rfl rfl rfl rfl, ahead⟩

theorem preserves_pushWrite_broken (txn : Option Nat) (wr : WriteRecord) :
    (pushWrite txn wr).Preserves fun s => Inv 0 s ∧ ¬ Obeyed s := by
  cases txn with
  | none => exact Program.preserves_pure _
  | some id =>
      exact Program.preserves_modify fun _ ⟨inv, broken⟩ => ⟨inv.congr rfl rfl rfl rfl, broken⟩

theorem preserves_release_broken (id : Nat) :
    (release id).Preserves fun s => Inv 0 s ∧ ¬ Obeyed s := by
  intro s ⟨inv, broken⟩
  refine ⟨preserves_release id s inv, not_obeyed_append broken ?_⟩
  unfold release
  rw [Program.run_get_bind]
  split
  · exact ⟨[], by simp⟩
  · simp only [Program.run_modify, Database.writeBack]
    split
    · exact ⟨_, rfl⟩
    · exact ⟨[], by simp [Database.unpin]⟩

theorem wp_enter (inv : Inv 0 s) (broken : ¬ Obeyed s) (event : Event) {raised : String → Database → Prop} :
    (enter event).wp (fun _ t => Inv 0 t ∧ ¬ Obeyed t) raised s :=
  ⟨inv.enter event fun _ => broken, broken⟩

/-! ## Table pages and undo pages -/

theorem preserves_writeHeader (tp : TablePage) :
    tp.writeHeader.Preserves (Inv tp.header.lsn) :=
  Program.preserves_modify fun _ inv => inv.setPage _ fun _ same => by
    cases same
    exact .inr (.inl rfl)

theorem wp_load (inv : Inv 0 s) (tableId p : Nat) {raised : String → Database → Prop} :
    (TablePage.load tableId p).wp (fun tp t => Inv tp.header.lsn t) raised s := by
  refine ⟨inv.numbered, inv.clean.imp_right fun ⟨_, pages, written⟩ => ⟨?_, pages, written⟩,
    inv.broken⟩
  cases page : s.page p with
  | table image => simpa [PageData.asTable, page] using pages p image page
  | blank => rfl
  | undo image => rfl

theorem preserves_load (tableId p : Nat) : (TablePage.load tableId p).Preserves (Inv lsn) :=
  fun _ inv => inv

theorem wp_init (inv : Inv 0 s) (tableId p : Nat) {raised : String → Database → Prop} :
    (TablePage.init tableId p).wp (fun tp t => Inv tp.header.lsn t) raised s :=
  preserves_writeHeader ⟨tableId, p, { pageId := p }, PAGE_SIZE - HEADER_SIZE⟩ s inv

theorem preserves_putRecord (p rowId : Nat) (record : Record) (inv : Inv lsn s) :
    Inv lsn (s.setPage p (.table (TablePage.putRecord (s.page p).asTable rowId record))) :=
  inv.setPage p fun _ same => by
    cases same
    exact .inl rfl

theorem preserves_markDelete (tp : TablePage) (rid : RID) (trxId : Nat) (rollPtr : UndoPointer) :
    (tp.markDelete rid trxId rollPtr).Preserves (Inv lsn) := by
  apply Program.preserves_get_bind
  intro s inv
  dsimp only
  split
  · exact inv
  · split
    · exact inv
    · exact preserves_updateItem _ _ _ _ (preserves_putRecord _ _ _ inv)

theorem preserves_restoreRecord (tp : TablePage) (rid : RID) (header : RecordHeader) :
    (tp.restoreRecord rid header).Preserves (Inv lsn) := by
  apply Program.preserves_get_bind
  intro s inv
  dsimp only
  split
  · exact inv
  · rw [Program.run_modify_bind]
    split
    · exact preserves_updateItem _ _ _ _ (preserves_putRecord _ _ _ inv)
    · exact preserves_putRecord _ _ _ inv

theorem preserves_markDead (tp : TablePage) (rid : RID) :
    (tp.markDead rid).Preserves (Inv lsn) := by
  apply Program.preserves_get_bind
  intro s inv
  dsimp only
  split
  · exact inv
  · rw [Program.run_modify_bind]
    split
    · exact preserves_updateItem _ _ _ _ (preserves_putRecord _ _ _ inv)
    · exact preserves_putRecord _ _ _ inv

theorem wp_insertTuple {tp : TablePage} (inv : Inv tp.header.lsn s) (record : Record) :
    (tp.insertTuple record).wp (fun result t => Inv result.2.header.lsn t) (fun _ t => Inv 0 t)
      s := by
  unfold TablePage.insertTuple
  split
  · exact inv
  · rw [Program.wp_bind, Program.wp_modify]
    have put : Inv tp.header.lsn (s.setPage tp.pageId (.table
        { (s.page tp.pageId).asTable with
          records := (s.page tp.pageId).asTable.records.take tp.header.numRows ++ [record] })) :=
      inv.setPage _ fun _ same => by
        cases same
        exact .inl rfl
    let grown : TablePage := { tp with
      freeSize := tp.freeSize - (SLOT_SIZE + record.size)
      header := { tp.header with numRows := tp.header.numRows + 1 } }
    rw [Program.wp_bind]
    apply ((preserves_writeHeader grown).wp put).mono
    · intro _ t inv
      rw [Program.wp_bind]
      apply ((preserves_updateItem _ _ _).wp inv).mono
      · exact fun _ t inv => inv
      · exact fun _ t inv => inv.zero
    · exact fun _ t inv => inv.zero

theorem preserves_setUndo (p : Nat) (image : UndoImage) (inv : Inv lsn s) :
    Inv lsn (s.setPage p (.undo image)) := inv.setPage p fun _ same => nomatch same

theorem preserves_newUndoPage : newUndoPage.Preserves (Inv lsn) := by
  apply preserves_newPage.bind
  intro id s inv
  exact (preserves_setUndo id _ inv).congr rfl rfl rfl rfl

theorem preserves_openUndoPage (undoLog : UndoLogManager) :
    (openUndoPage undoLog).Preserves (Inv lsn) := by
  unfold openUndoPage
  split
  · exact preserves_newUndoPage
  · exact (preserves_fetchPage _).bind fun _ => Program.preserves_pure _

theorem preserves_makeUndoRoom (pageId payloadSize : Nat) :
    (makeUndoRoom pageId payloadSize).Preserves (Inv lsn) := by
  apply Program.preserves_getThen
  intro s
  split
  · exact Program.preserves_pure _
  · exact (preserves_release _).bind fun _ => preserves_newUndoPage

theorem preserves_appendUndoRecord (undoLog : UndoLogManager) (record : UndoLogRecord) :
    (appendUndoRecord undoLog record).Preserves (Inv lsn) := by
  apply (preserves_openUndoPage undoLog).bind
  intro first
  apply (preserves_makeUndoRoom first _).bind
  intro pageId
  apply Program.preserves_getThen
  intro s
  dsimp only
  split
  · exact (preserves_release _).bind fun _ => Program.preserves_throw _
  · apply (Program.preserves_modify fun _ inv => preserves_setUndo _ _ inv).bind
    intro _
    exact (preserves_release _).bind fun _ => Program.preserves_pure _

theorem preserves_getUndoRecord (pointer : UndoPointer) :
    (getUndoRecord pointer).Preserves (Inv lsn) :=
  (preserves_fetchPage _).bind fun _ => Program.preserves_getThen fun _ =>
    (preserves_release _).bind fun _ => Program.preserves_pure _

/-! ## Iterators -/

theorem preserves_loadPage (it : TableIterator) : it.loadPage.Preserves (Inv lsn) :=
  (preserves_fetchPage _).bind fun _ => (preserves_load _ _).bind fun _ =>
    Program.preserves_pure _

theorem preserves_nextPage (fuel : Nat) (it : TableIterator) :
    (TableIterator.nextPage fuel it).Preserves (Inv lsn) := by
  induction fuel generalizing it with
  | zero => exact Program.preserves_throw _
  | succ fuel ih =>
      apply (preserves_release _).bind
      intro _
      split
      · exact Program.preserves_pure _
      · apply (preserves_loadPage _).bind
        intro it
        dsimp only
        split
        · exact ih _
        · exact Program.preserves_pure _

theorem preserves_create (tableId : Nat) :
    (TableIterator.create tableId).Preserves (Inv lsn) := by
  apply (preserves_getFirstPageId tableId).bind
  intro firstPageId
  dsimp only
  split
  · exact Program.preserves_pure _
  · apply (preserves_loadPage _).bind
    intro it
    split
    · exact Program.preserves_getThen fun _ => preserves_nextPage _ _
    · exact Program.preserves_pure _

theorem preserves_current (it : TableIterator) : it.current.Preserves (Inv lsn) := by
  unfold TableIterator.current
  dsimp only
  split
  · exact Program.preserves_throw _
  · exact Program.preserves_getThen fun _ => Program.preserves_pure _

theorem preserves_advance (it : TableIterator) : it.advance.Preserves (Inv lsn) := by
  unfold TableIterator.advance
  dsimp only
  split
  · exact Program.preserves_pure _
  · split
    · exact Program.preserves_getThen fun _ => preserves_nextPage _ _
    · exact (preserves_touchPage _).bind fun _ => Program.preserves_pure _

theorem preserves_whileNotEnd {round : TableIterator → β → Exec (TableIterator × β)}
    (each : ∀ it acc, (round it acc).Preserves (Inv lsn)) (fuel : Nat) (it : TableIterator)
    (acc : β) : (TableIterator.whileNotEnd round fuel it acc).Preserves (Inv lsn) := by
  induction fuel generalizing it acc with
  | zero =>
      unfold TableIterator.whileNotEnd
      split
      · exact Program.preserves_pure _
      · exact Program.preserves_throw _
  | succ fuel ih =>
      unfold TableIterator.whileNotEnd
      split
      · exact Program.preserves_pure _
      · exact (each it acc).bind fun _ => ih _ _

/-! ## Statements -/

theorem wp_openLastPage (inv : Inv 0 s) (tableId : Nat) (item : MetaItem) :
    (ExecutorInsert.openLastPage tableId item).wp (fun tp t => Inv tp.header.lsn t)
      (fun _ t => Inv 0 t) s := by
  unfold ExecutorInsert.openLastPage
  split
  · apply preserves_newPage.wp_bind inv fun _ _ inv => inv
    intro id t inv
    apply (preserves_updateItem _ _ _).wp_bind inv fun _ _ inv => inv
    intro _ t inv
    split
    · apply (preserves_updateItem _ _ _).wp_bind inv fun _ _ inv => inv
      exact fun _ t inv => wp_init inv _ _
    · exact wp_init inv _ _
  · apply (preserves_fetchPage _).wp_bind inv fun _ _ inv => inv
    exact fun _ t inv => wp_load inv _ _

theorem wp_makeRoom {tp : TablePage} (inv : Inv tp.header.lsn s) (tuple : Record) :
    (ExecutorInsert.makeRoom tp tuple).wp (fun tp t => Inv tp.header.lsn t)
      (fun _ t => Inv 0 t) s := by
  unfold ExecutorInsert.makeRoom
  split
  · exact inv
  · apply preserves_newPage.wp_bind inv fun _ _ inv => inv.zero
    intro id t inv
    -- the old page gets a link, and its object is not used any more
    let linked : TablePage := { tp with header := { tp.header with nextPageId := id } }
    have written : Inv tp.header.lsn (linked.writeHeader.run t).2 :=
      preserves_writeHeader linked t inv
    rw [Program.wp_bind]
    change Program.wp _ _ _ (linked.writeHeader.run t).2
    apply (preserves_flush _).wp_bind written.zero fun _ _ inv => inv
    intro _ t inv
    apply (preserves_release _).wp_bind inv fun _ _ inv => inv
    intro _ t inv
    rw [Program.wp_bind]
    apply (wp_init inv linked.tableId id).mono
    · intro last t inv
      apply (preserves_updateItem _ _ _).wp_bind inv fun _ _ inv => inv.zero
      exact fun _ _ inv => inv
    · exact fun _ _ inv => inv

theorem preserves_insert (txn : Option Nat) (tableId : Nat) (row : Except String (List UInt8)) :
    (ExecutorInsert.insert txn tableId row).Preserves (Inv 0) := by
  apply Program.preserves_getThen
  intro s
  cases s.items tableId with
  | none => exact Program.preserves_throw _
  | some item =>
      apply Program.Preserves.of_wp
      intro s inv
      rw [Program.wp_bind]
      apply (wp_openLastPage inv tableId item).mono _ fun _ _ inv => inv
      intro tp t inv
      apply (Program.preserves_lift row).wp_bind inv fun _ _ inv => inv.zero
      intro payload t inv
      rw [Program.wp_bind]
      apply (wp_makeRoom inv _).mono _ fun _ _ inv => inv
      intro tp t inv
      rw [Program.wp_bind]
      apply (wp_insertTuple inv _).mono _ fun _ _ inv => inv
      rintro ⟨inserted, tp⟩ t inv
      cases inserted with
      | none => exact inv.zero
      | some rid =>
          dsimp only
          rw [Program.wp_bind]
          apply (wp_logAndSetLsn inv txn (.inl rfl) tableId rid _ tp).mono _ fun _ _ inv => inv
          rintro tp' t ⟨same, -, inv, ahead⟩
          rw [← same] at ahead
          rw [Program.wp_bind]
          apply (wp_flush_ahead inv ahead).mono _ fun _ _ inv => inv
          intro _ t changed
          apply (preserves_pushWrite_broken _ _).wp_bind changed fun _ _ changed => changed.1
          intro _ t changed
          rw [Program.wp_bind]
          apply (wp_enter changed.1 changed.2 _).mono _ fun _ _ inv => inv
          intro _ t changed
          exact (preserves_release _).wp changed.1

theorem preserves_saveVersion (old : Record) : (saveVersion old).Preserves (Inv lsn) := by
  apply Program.preserves_getThen
  intro s
  cases s.undoLog with
  | none => exact Program.preserves_pure _
  | some undoLog => exact preserves_appendUndoRecord _ _

theorem preserves_delete (txn : Option Nat) (tableId : Nat) (filter : Option Filter) :
    (ExecutorDelete.delete txn tableId filter).Preserves (Inv 0) := by
  apply (preserves_create tableId).bind
  intro it
  apply Program.preserves_getThen
  intro s
  apply preserves_whileNotEnd
  intro it deleted
  apply (preserves_current it).bind
  intro current
  cases current with
  | none => exact (preserves_advance _).bind fun _ => Program.preserves_pure _
  | some record =>
      apply Program.preserves_getThen
      intro s
      apply Program.preserves_liftThen
      intro target
      cases target with
      | false => exact (preserves_advance _).bind fun _ => Program.preserves_pure _
      | true =>
          refine Program.Preserves.bind ?_ fun _ =>
            (preserves_advance _).bind fun _ => Program.preserves_pure _
          apply Program.Preserves.of_wp
          intro s inv
          apply (preserves_saveVersion _).wp_bind inv fun _ _ inv => inv
          intro rollPtr t inv
          apply (preserves_markDelete _ _ _ _).wp_bind inv fun _ _ inv => inv
          intro _ t inv
          rw [Program.wp_bind]
          apply (wp_logAndSetLsn inv txn (.inr rfl) _ it.rid none it.tablePage).mono _
            fun _ _ inv => inv
          rintro tp t ⟨same, -, inv, ahead⟩
          rw [← same] at ahead
          apply (preserves_pushWrite _ _).wp_bind ⟨inv, ahead⟩ fun _ _ changed => changed.1
          rintro _ t ⟨inv, ahead⟩
          rw [Program.wp_bind]
          apply (wp_flush_ahead inv ahead).mono _ fun _ _ inv => inv
          rintro _ t ⟨inv, broken⟩
          rw [Program.wp_bind]
          exact (wp_enter inv broken _).mono (fun _ _ changed => changed.1) fun _ _ inv => inv

theorem preserves_deleteOld (txn : Option Nat) (tableId : Nat) (hit : ExecutorUpdate.Hit)
    (rollPtr : UndoPointer) :
    (ExecutorUpdate.deleteOld txn tableId hit rollPtr).Preserves (Inv 0) := by
  apply Program.Preserves.of_wp
  intro s inv
  apply (preserves_fetchPage _).wp_bind inv fun _ _ inv => inv
  intro _ t inv
  apply (preserves_load _ _).wp_bind inv fun _ _ inv => inv
  intro tp t inv
  apply (preserves_markDelete _ _ _ _).wp_bind inv fun _ _ inv => inv
  intro _ t inv
  rw [Program.wp_bind]
  apply (wp_logAndSetLsn inv txn (.inr rfl) tableId hit.rid none tp).mono _ fun _ _ inv => inv
  rintro tp t ⟨same, -, inv, ahead⟩
  rw [← same] at ahead
  rw [Program.wp_bind]
  apply (wp_flush_ahead inv ahead).mono _ fun _ _ inv => inv
  intro _ t changed
  apply (preserves_release_broken _).wp_bind changed fun _ _ changed => changed.1
  intro _ t changed
  apply (preserves_pushWrite_broken _ _).wp_bind changed fun _ _ changed => changed.1
  rintro _ t ⟨inv, broken⟩
  exact (wp_enter inv broken _).mono (fun _ _ changed => changed.1) fun _ _ inv => inv

theorem wp_insertNewVersion (inv : Inv 0 s) (txn : Option Nat) (tableId : Nat) (tuple : Record) :
    (ExecutorUpdate.insertNewVersion txn tableId tuple).wp (fun _ t => Inv 0 t ∧ ¬ Obeyed t)
      (fun _ t => Inv 0 t) s := by
  unfold ExecutorUpdate.insertNewVersion
  rw [Program.wp_bind, Program.wp_get, Program.wp_bind]
  apply (wp_openLastPage inv tableId _).mono _ fun _ _ inv => inv
  intro tp t inv
  rw [Program.wp_bind]
  apply (wp_makeRoom inv _).mono _ fun _ _ inv => inv
  intro tp t inv
  rw [Program.wp_bind]
  apply (wp_insertTuple inv _).mono _ fun _ _ inv => inv
  rintro ⟨inserted, tp⟩ t inv
  dsimp only
  rw [Program.wp_bind]
  apply (wp_logAndSetLsn inv txn (.inl rfl) tableId _ _ tp).mono _ fun _ _ inv => inv
  rintro tp t ⟨same, -, inv, ahead⟩
  rw [← same] at ahead
  rw [Program.wp_bind]
  apply (wp_flush_ahead inv ahead).mono _ fun _ _ inv => inv
  intro _ t changed
  apply (preserves_release_broken _).wp_bind changed fun _ _ changed => changed.1
  exact fun _ _ changed => changed

theorem preserves_update (txn : Option Nat) (tableId : Nat) (schema : List ColumnTypes)
    (clauses : List ExecutorUpdate.SetClause) (filter : Option Filter) :
    (ExecutorUpdate.update txn tableId schema clauses filter).Preserves (Inv 0) := by
  apply (preserves_create tableId).bind
  intro it
  apply Program.preserves_getThen
  intro s
  refine Program.Preserves.bind (preserves_whileNotEnd ?_ _ _ _) fun hits =>
    (Program.preserves_forM ?_ hits).bind fun _ => Program.preserves_pure _
  · intro it hits
    apply (preserves_current it).bind
    intro current
    cases current with
    | none => exact (preserves_advance _).bind fun _ => Program.preserves_pure _
    | some record =>
        apply Program.preserves_getThen
        intro s
        apply Program.preserves_liftThen
        intro target
        cases target with
        | false => exact (preserves_advance _).bind fun _ => Program.preserves_pure _
        | true =>
            exact Program.preserves_liftThen _ fun _ =>
              (preserves_advance _).bind fun _ => Program.preserves_pure _
  · intro hit
    apply (preserves_saveVersion _).bind
    intro rollPtr
    apply Program.preserves_liftThen
    intro payload
    apply (preserves_deleteOld _ _ _ _).bind
    intro _
    apply Program.Preserves.of_wp
    intro s inv
    rw [Program.wp_bind]
    apply (wp_insertNewVersion inv txn tableId _).mono _ fun _ _ inv => inv
    intro rid t changed
    apply (preserves_pushWrite_broken _ _).wp_bind changed fun _ _ changed => changed.1
    rintro _ t ⟨inv, broken⟩
    exact (wp_enter inv broken _).mono (fun _ _ changed => changed.1) fun _ _ inv => inv

theorem preserves_walk (txn : Option Nat) (fuel : Nat) (version : Record) :
    (ExecutorSeqScan.walk txn fuel version).Preserves (Inv lsn) := by
  induction fuel generalizing version with
  | zero => exact Program.preserves_throw _
  | succ fuel ih =>
      apply Program.preserves_getThen
      intro s
      split
      · exact Program.preserves_pure _
      · split
        · exact Program.preserves_pure _
        · apply (preserves_getUndoRecord _).bind
          intro older
          cases older with
          | none => exact Program.preserves_pure _
          | some older => exact ih older

theorem preserves_visibleVersion (txn : Option Nat) (physical : Record) :
    (ExecutorSeqScan.visibleVersion txn physical).Preserves (Inv lsn) := by
  unfold ExecutorSeqScan.visibleVersion
  split
  · exact Program.preserves_pure _
  · apply Program.preserves_getThen
    intro s
    split
    · exact Program.preserves_pure _
    · exact Program.preserves_getThen fun s => preserves_walk _ _ _

theorem preserves_select (txn : Option Nat) (tableId : Nat) (filter : Option Filter) :
    (ExecutorSeqScan.select txn tableId filter).Preserves (Inv lsn) := by
  apply (preserves_create tableId).bind
  intro it
  apply Program.preserves_getThen
  intro s
  apply preserves_whileNotEnd
  intro it rows
  apply (preserves_current it).bind
  intro current
  cases current with
  | none => exact (preserves_advance _).bind fun _ => Program.preserves_pure _
  | some physical =>
      apply (preserves_advance _).bind
      intro it
      apply (preserves_visibleVersion _ _).bind
      intro version
      cases version with
      | none => exact Program.preserves_pure _
      | some version =>
          cases filter with
          | none => exact Program.preserves_pure _
          | some filter =>
              apply Program.preserves_liftThen
              intro value
              apply Program.preserves_liftThen
              intro keep
              cases keep with
              | false => exact Program.preserves_pure _
              | true => exact Program.preserves_pure _

/-! ## Begin, Commit, Abort -/

theorem preserves_refreshReadView (id : Nat) : (refreshReadView id).Preserves (Inv lsn) :=
  Program.preserves_modify fun s inv => by
    have viewed : Inv lsn
        { s with txnManager := s.txnManager.setReadView id (s.txnManager.createReadView id) } :=
      inv.congr rfl rfl rfl rfl
    exact viewed.enter _ (fun changes => nomatch changes)

theorem preserves_forceControlLog (id : Nat) {type : LogRecordType} :
    (forceControlLog id type).Preserves (Inv lsn) := by
  apply Program.preserves_getThen
  intro s
  split
  · refine Program.Preserves.bind ?_ fun _ => preserves_flushLog
    apply Program.Preserves.of_wp
    intro s inv
    exact (wp_appendLogRecord inv id type none).mono (fun _ _ post => post.1) fun _ _ inv => inv
  · exact Program.preserves_pure _

theorem preserves_rollbackWrites (writeSet : List WriteRecord) :
    (rollbackWrites writeSet).Preserves (Inv lsn) := by
  apply Program.preserves_getThen
  intro s
  split
  · apply Program.preserves_forM
    intro wr
    apply (preserves_fetchPage _).bind
    intro _
    refine Program.Preserves.bind ?_ fun _ => (preserves_flush _).bind fun _ => preserves_release _
    apply (preserves_load _ _).bind
    intro tp
    cases wr.type with
    | insert => exact preserves_markDead _ _
    | updateInsertNew => exact preserves_markDead _ _
    | delete => exact preserves_restoreRecord _ _ _
    | updateDeleteOld => exact preserves_restoreRecord _ _ _
  · exact Program.preserves_pure _

theorem preserves_commit (id : Nat) : (commitTransaction id).Preserves (Inv lsn) := by
  apply Program.preserves_get_bind
  intro s inv
  cases s.txnManager.commitSection id with
  | error message => exact inv
  | ok txnManager =>
      have ended : Inv lsn { s with txnManager := txnManager } := inv.congr rfl rfl rfl rfl
      exact preserves_forceControlLog id _ (ended.enter _ (fun changes => nomatch changes))

theorem preserves_abort (id : Nat) : (abortTransaction id).Preserves (Inv lsn) := by
  apply Program.preserves_getThen
  intro s
  cases s.txnManager.abortLookup id with
  | error message => exact Program.preserves_throw _
  | ok found =>
      apply (preserves_rollbackWrites _).bind
      intro _
      refine Program.Preserves.bind ?_ fun _ => preserves_forceControlLog id
      apply Program.preserves_modify
      intro s inv
      have ended : Inv lsn { s with txnManager := s.txnManager.abortFinish id } :=
        inv.congr rfl rfl rfl rfl
      exact ended.enter _ (fun changes => nomatch changes)

theorem preserves_begin : beginTransaction.Preserves (Inv lsn) := by
  apply Program.preserves_get_bind
  intro s inv
  have begun : Inv lsn { s with txnManager := s.txnManager.beginAllocate.2 } :=
    inv.congr rfl rfl rfl rfl
  exact preserves_refreshReadView _ _ begun

theorem Inv.perform (inv : Inv 0 s) (command : Command) : Inv 0 (command.perform s) := by
  cases command with
  | begin => exact preserves_begin s inv
  | refreshReadView id => exact preserves_refreshReadView id s inv
  | commit id => exact preserves_commit id s inv
  | abort id => exact preserves_abort id s inv
  | insert txn tableId row => exact preserves_insert txn tableId row s inv
  | delete txn tableId filter => exact preserves_delete txn tableId filter s inv
  | update txn tableId schema clauses filter =>
      exact preserves_update txn tableId schema clauses filter s inv
  | select txn tableId filter => exact preserves_select txn tableId filter s inv

/-! ## Runs -/

/-- A process starts with a new log and with pages that no run has changed yet. -/
structure Started (s : Database) : Prop where
  log : ∃ capacity, s.log = some { capacity := capacity }
  io : s.io = []
  journal : s.journal = []
  page : ∀ p image, s.page p = .table image → image.header.lsn = 0

theorem Started.inv (started : Started s) : Inv 0 s where
  numbered := by
    obtain ⟨capacity, log⟩ := started.log
    exact ⟨_, log, le_rfl, by simp [started.io, logFile]⟩
  clean := .inr ⟨rfl, started.page, by simp [started.io]⟩
  broken := by
    rintro ⟨event, member, _⟩
    simp [started.journal] at member

theorem Started.inv_performAll (started : Started s) (commands : List Command) :
    Inv 0 (s.performAll commands) :=
  Database.performAll_invariant started.inv (fun command _ inv => inv.perform command) commands

/-- The rule holds at every moment of a run that logs no row change, and at some moment
    of a run that changes a row it does not. -/
theorem obeyed_unless_row_changed (started : Started s) (commands : List Command) :
    (¬ RowLogged (s.performAll commands) → Obeyed (s.performAll commands)) ∧
      (RowChanged (s.performAll commands) → ¬ Obeyed (s.performAll commands)) :=
  have inv := started.inv_performAll commands
  ⟨inv.obeyed, inv.broken⟩

/-- A new data file with one table. -/
def newTable : Database where
  items := Function.update (fun _ => none) 1 (some { tableId := 1, tableName := "t" })

theorem newTable_started : Started newTable :=
  ⟨⟨_, rfl⟩, rfl, rfl, fun _ _ page => nomatch page⟩

/-- Transaction 1 inserts a row. -/
def oneInsert : List Command := [.begin, .insert (some 1) 1 (.ok [49, 7, 0, 0, 0])]

theorem obeyed_unless_row_changed_oneInsert :
    (¬ RowLogged (newTable.performAll oneInsert) → Obeyed (newTable.performAll oneInsert)) ∧
      (RowChanged (newTable.performAll oneInsert) → ¬ Obeyed (newTable.performAll oneInsert)) :=
  obeyed_unless_row_changed newTable_started oneInsert

/-- The page with the row is in the data file while its log record is in the buffer. -/
theorem oneInsert_breaks_rule : Started newTable ∧ ¬ Obeyed (newTable.performAll oneInsert) := by
  have changed : RowChanged (newTable.performAll oneInsert) :=
    ⟨.insert 1 1 ⟨1, 1⟩ [49, 7, 0, 0, 0], by decide, rfl⟩
  exact ⟨newTable_started, (newTable_started.inv_performAll oneInsert).broken changed⟩

end YourSQL.WriteAhead
