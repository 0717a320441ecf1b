import YourSQL.Buffer.PoolClient
import YourSQL.Transaction.UndoPageBytes

/-! # Undo records in the buffer pool

`UndoLogManager` with the pages of a real pool under it, while other clients use the
pool. A record stays where it was appended, as it was.
-/

namespace YourSQL

structure UndoRun where
  pool : PoolRun
  undoPageId : Nat := INVALID_PAGE_ID
  /-- The pages that were made for undo records. -/
  undoPages : List Nat := []
  /-- What was appended, with the pointers that were returned. -/
  appended : List (UndoPointer × RawUndoRecord) := []

namespace UndoRun

abbrev Call := Program UndoRun String

/-- What a write behind the end of a page, or a read there, is taken for. -/
def OVERRUN : String := "access behind the page"

def client (x : PoolRun.Client α) : Call α :=
  ⟨fun s => ((x.run s.pool).1, { s with pool := (x.run s.pool).2 })⟩

/-- `page->data_` of a frame. -/
def bytes (s : UndoRun) (frame : Nat) : List UInt8 := (s.pool.pool.frames frame).data.val

/-- `page->id_` of a frame. -/
def pageId (s : UndoRun) (frame : Nat) : Nat := (s.pool.pool.frames frame).id

/-- The bytes of a page are those that were computed, if they are as many. -/
def put (frame : Nat) (data : List UInt8) : Call Unit :=
  if sized : data.length = PAGE_SIZE then client (PoolRun.store frame ⟨data, sized⟩)
  else throw OVERRUN

/-- A new undo page with its header written. -/
def newUndoPage : Call (Nat × UndoLogPage) := do
  let frame ← client PoolRun.allocate
  let s ← get
  let new := UndoLogPage.initNew (s.pageId frame) (s.bytes frame)
  put frame new.2
  modify fun t =>
    { t with undoPageId := s.pageId frame, undoPages := s.pageId frame :: t.undoPages }
  return (frame, new.1)

/-- The page that was appended to last, or the first one. -/
def openUndoPage : Call (Nat × UndoLogPage) := do
  let s ← get
  if s.undoPageId = INVALID_PAGE_ID then
    newUndoPage
  else
    let frame ← client (PoolRun.fetch s.undoPageId)
    return (frame, UndoLogPage.load ((← get).bytes frame))

/-- A new page, where the open one has no space for the record. -/
def makeUndoRoom (opened : Nat × UndoLogPage) (payloadSize : Nat) : Call (Nat × UndoLogPage) := do
  if opened.2.hasSpaceFor payloadSize then
    return opened
  else
    client (PoolRun.giveBack ((← get).pageId opened.1))
    newUndoPage

/-- `AppendUndoRecord`. -/
def appendUndoRecord (record : RawUndoRecord) : Call UndoPointer := do
  let opened ← openUndoPage
  let (frame, page) ← makeUndoRoom opened record.payload.length
  let s ← get
  match page.appendRecord (s.bytes frame) record with
  | none =>
      client (PoolRun.giveBack (s.pageId frame))
      throw "UndoLogManager::AppendUndoRecord fail."
  | some (offset, _, data) =>
      put frame data
      client (PoolRun.giveBack (s.pageId frame))
      return ⟨s.pageId frame, offset⟩

/-- `GetUndoRecord`: the tuple with its size. -/
def getUndoRecord (pointer : UndoPointer) : Call (UInt16 × List UInt8) := do
  let frame ← client (PoolRun.fetch pointer.pageId)
  let s ← get
  match UndoLogPage.readRecord (s.bytes frame) pointer.slot with
  | none => throw OVERRUN
  | some record =>
      client (PoolRun.giveBack (s.pageId frame))
      return (UInt16.ofNat record.payload.length, record.payload)

inductive Step where
  | append (record : RawUndoRecord)
  | traffic (call : PoolCall)

/-- Other clients do not write to the pages of the undo log. -/
def Foreign (s : UndoRun) : PoolCall → Prop
  | .write id _ _ => id ∉ s.undoPages
  | _ => True

instance (s : UndoRun) (call : PoolCall) : Decidable (s.Foreign call) := by
  unfold Foreign
  split <;> infer_instance

def step (s : UndoRun) : Step → Option UndoRun
  | .append record =>
      if record.payload.length < 2 ^ 16 then
        match (appendUndoRecord record).run s with
        | (.ok pointer, s) => some { s with appended := s.appended ++ [(pointer, record)] }
        | (.error _, s) => some s
      else
        none
  | .traffic call =>
      if s.Foreign call then (s.pool.step call).map fun pool => { s with pool := pool } else none

/-- A process on an empty data file, in which some page ids were drawn already. -/
def start (maxPages : Nat) (frames : Nat → PageBytes) (drawn : Nat) : UndoRun where
  pool := .start (fun _ => zeroPage) maxPages frames drawn

/-- The records of a page. -/
def entries (s : UndoRun) (id : Nat) : List (Nat × RawUndoRecord) :=
  (s.appended.filter fun entry => entry.1.pageId == id).map fun entry =>
    (entry.1.slot, entry.2)

/-- The undo pages are packed with what was appended to them. -/
structure Inv (s : UndoRun) : Prop where
  serves : s.pool.Serves
  issued : ∀ id ∈ s.undoPages, id ∈ s.pool.issued
  current : s.undoPageId ≠ INVALID_PAGE_ID → s.undoPageId ∈ s.undoPages
  packed : ∀ id ∈ s.undoPages, UndoLogPage.Packed (s.pool.lastWritten id).val (s.entries id)
  owned : ∀ entry ∈ s.appended, entry.1.pageId ∈ s.undoPages

theorem inv_start (maxPages : Nat) (frames : Nat → PageBytes) (drawn : Nat) :
    (start maxPages frames drawn).Inv where
  serves := PoolRun.serves_start maxPages frames fun _ _ => rfl
  issued := by simp [start]
  current := by simp [start]
  packed := by simp [start]
  owned := by simp [start]

variable {s s' : UndoRun} {frame : Nat} {page : UndoLogPage} {record : RawUndoRecord} {α : Type}

theorem wp_client {x : PoolRun.Client α} {post : α → UndoRun → Prop}
    {raised : String → UndoRun → Prop} :
    (client x).wp post raised s ↔
      x.wp (fun a pool => post a { s with pool := pool })
        (fun e pool => raised e { s with pool := pool }) s.pool := by
  simp only [Program.wp, client]
  rcases x.run s.pool with ⟨_ | _, _⟩ <;> rfl

/-- A page in hand has the bytes that were last written to it. -/
theorem Inv.inFrame (inv : s.Inv) {id : Nat} (inHand : (id, frame) ∈ s.pool.handles) :
    s.pageId frame = id ∧ s.bytes frame = (s.pool.lastWritten id).val := by
  obtain ⟨ownId, ownData⟩ := inv.serves.inFrame inHand
  exact ⟨ownId, congrArg Subtype.val ownData⟩

/-- What the pool does with its frames is not seen. -/
theorem Inv.same (inv : s.Inv) {pool : PoolRun} (same : s.pool.Same pool) :
    ({ s with pool := pool } : UndoRun).Inv where
  serves := same.serves
  issued := same.issued ▸ inv.issued
  current := inv.current
  packed := same.lastWritten ▸ inv.packed
  owned := inv.owned

/-- There is nothing on a page that was not made for undo records. -/
theorem Inv.entries_eq_nil (inv : s.Inv) {id : Nat} (foreign : id ∉ s.undoPages) :
    s.entries id = [] := by
  have none : (s.appended.filter fun entry => entry.1.pageId == id) = [] := by
    refine List.filter_eq_nil_iff.mpr fun entry member here => ?_
    rw [beq_iff_eq] at here
    exact foreign (here ▸ inv.owned entry member)
  rw [entries, none, List.map_nil]

theorem Inv.made (inv : s.Inv) {pool : PoolRun} {id : Nat} {data : PageBytes}
    (serves : pool.Serves) (fresh : id ∉ s.pool.issued)
    (lastWritten : pool.lastWritten = Function.update s.pool.lastWritten id data)
    (issued : pool.issued = id :: s.pool.issued) (packed : UndoLogPage.Packed data.val []) :
    ({ s with pool := pool, undoPageId := id, undoPages := id :: s.undoPages } : UndoRun).Inv where
  serves := serves
  issued := by
    intro other member
    show other ∈ pool.issued
    rw [issued]
    rcases List.mem_cons.mp member with rfl | old
    · exact List.mem_cons_self
    · exact List.mem_cons_of_mem _ (inv.issued other old)
  current _ := List.mem_cons_self
  packed := by
    intro other member
    simp only [lastWritten]
    by_cases same : other = id
    · subst same
      have empty := inv.entries_eq_nil fun old => fresh (inv.issued other old)
      rw [Function.update_self]
      exact empty ▸ packed
    · rw [Function.update_of_ne same]
      exact inv.packed other ((List.mem_cons.mp member).resolve_left same)
  owned entry member := List.mem_cons_of_mem _ (inv.owned entry member)

/-- An undo page is in hand, and the object knows where its free space begins. -/
def Opened (s : UndoRun) (opened : Nat × UndoLogPage) : Prop :=
  ∃ id ∈ s.undoPages, (id, opened.1) ∈ s.pool.handles ∧
    opened.2.freeOffset = Bytes.toNat (Bytes.field (s.pool.lastWritten id).val 16 4)

/-- Nothing was appended, and the pages are packed as before. -/
structure Kept (s t : UndoRun) : Prop where
  inv : t.Inv
  appended : t.appended = s.appended

theorem put_eq {data : List UInt8} (sized : data.length = PAGE_SIZE) :
    put frame data = client (PoolRun.store frame ⟨data, sized⟩) := dif_pos sized

theorem Inv.wp_newUndoPage (inv : s.Inv) :
    newUndoPage.wp (fun opened t => s.Kept t ∧ t.Opened opened)
      (fun e t => s.Kept t ∧ e = "LRU manager is empty") s := by
  rw [newUndoPage, Program.wp_bind, wp_client]
  refine inv.serves.wp_allocate.mono ?_ ?_
  · rintro frame pool ⟨id, fresh, valid, serves, lastWritten, issued, handles⟩
    have inHand : (id, frame) ∈ pool.handles := handles ▸ List.mem_cons_self
    obtain ⟨ownId, ownData⟩ := serves.inFrame inHand
    have zero : pool.lastWritten id = zeroPage := by
      rw [lastWritten, Function.update_self]
    have blank := UndoLogPage.packed_initNew id zeroPage.property
    simp only [Program.wp_bind, Program.wp_get, pageId, bytes, ownId, ownData, zero,
      put_eq blank.sized, wp_client, Program.wp_modify, Program.wp_pure]
    refine (serves.wp_store inHand).mono ?_ fun _ _ never => never.elim
    rintro - pool' ⟨serves', lastWritten', issued', handles'⟩
    have written : pool'.lastWritten = Function.update s.pool.lastWritten id
        ⟨(UndoLogPage.initNew id zeroPage.val).2, blank.sized⟩ := by
      rw [lastWritten', lastWritten, Function.update_idem]
    refine ⟨⟨inv.made serves' fresh written (issued'.trans issued) blank, rfl⟩, id,
      List.mem_cons_self, handles' ▸ inHand, ?_⟩
    simp only [written, Function.update_self]
    exact (UndoLogPage.field_writeHeader _ zeroPage.property (by simp [UndoLogPage.initNew, UNDO_HEADER_SIZE])).symm
  · rintro e pool ⟨rfl, rfl, -⟩
    exact ⟨⟨inv, rfl⟩, rfl⟩

theorem Inv.wp_openUndoPage (inv : s.Inv) :
    openUndoPage.wp (fun opened t => s.Kept t ∧ t.Opened opened)
      (fun e t => s.Kept t ∧ e = "LRU manager is empty") s := by
  simp only [openUndoPage, Program.wp_bind, Program.wp_get]
  split
  · exact inv.wp_newUndoPage
  · rename_i known
    have mine := inv.current known
    simp only [Program.wp_bind, wp_client, Program.wp_get, Program.wp_pure]
    refine (inv.serves.wp_fetch (.inr (inv.issued _ mine))).mono ?_ ?_
    · rintro frame pool ⟨same, handles⟩
      have inv' := inv.same same
      have inHand : (s.undoPageId, frame) ∈ pool.handles := handles ▸ List.mem_cons_self
      refine ⟨⟨inv', rfl⟩, s.undoPageId, mine, inHand, ?_⟩
      rw [(inv'.inFrame inHand).2]
      exact (inv'.packed _ mine).freeOffset
    · rintro e pool ⟨rfl, rfl, -⟩
      exact ⟨⟨inv, rfl⟩, rfl⟩

theorem Inv.wp_makeUndoRoom (inv : s.Inv) {opened : Nat × UndoLogPage} (hand : s.Opened opened)
    (payloadSize : Nat) :
    (makeUndoRoom opened payloadSize).wp (fun opened t => s.Kept t ∧ t.Opened opened)
      (fun e t => s.Kept t ∧ e = "LRU manager is empty") s := by
  unfold makeUndoRoom
  split
  · exact ⟨⟨inv, rfl⟩, hand⟩
  · obtain ⟨id, -, inHand, -⟩ := hand
    simp only [Program.wp_bind, Program.wp_get, (inv.inFrame inHand).1, wp_client]
    refine (inv.serves.wp_giveBack inHand).mono ?_ fun _ _ never => never.elim
    rintro - pool ⟨same, -⟩
    exact (inv.same same).wp_newUndoPage.mono
      (fun _ _ made => ⟨⟨made.1.inv, made.1.appended⟩, made.2⟩)
      fun _ _ full => ⟨⟨full.1.inv, full.1.appended⟩, full.2⟩

/-- A record was appended to a page of the log. -/
theorem Inv.appended (inv : s.Inv) {pool : PoolRun} {id offset : Nat} {data : PageBytes}
    (mine : id ∈ s.undoPages) (serves : pool.Serves)
    (lastWritten : pool.lastWritten = Function.update s.pool.lastWritten id data)
    (issued : pool.issued = s.pool.issued)
    (packed : UndoLogPage.Packed data.val (s.entries id ++ [(offset, record)])) :
    ({ s with
      pool := pool
      appended := s.appended ++ [(⟨id, offset⟩, record)] } : UndoRun).Inv where
  serves := serves
  issued := issued ▸ inv.issued
  current := inv.current
  packed := by
    intro other member
    simp only [lastWritten]
    by_cases same : other = id
    · subst same
      rw [Function.update_self]
      simpa [entries] using packed
    · rw [Function.update_of_ne same]
      simpa [entries, Ne.symm same] using inv.packed other member
  owned := by
    intro entry member
    rcases List.mem_append.mp member with old | new
    · exact inv.owned entry old
    · obtain rfl := List.mem_singleton.mp new
      exact mine

/-- A record is appended, or nothing is. -/
theorem Inv.wp_appendUndoRecord (inv : s.Inv) (small : record.payload.length < 2 ^ 16) :
    (appendUndoRecord record).wp
      (fun pointer t =>
        ({ t with appended := t.appended ++ [(pointer, record)] } : UndoRun).Inv ∧
          t.appended = s.appended)
      (fun e t => s.Kept t ∧ e ≠ OVERRUN) s := by
  have raises : ∀ t e u, s.Kept t → t.Kept u ∧ e = "LRU manager is empty" →
      s.Kept u ∧ e ≠ OVERRUN := by
    rintro t e u kept ⟨kept', rfl⟩
    exact ⟨⟨kept'.inv, kept'.appended.trans kept.appended⟩, by decide⟩
  rw [appendUndoRecord, Program.wp_bind]
  refine inv.wp_openUndoPage.mono ?_ fun e t => raises s e t ⟨inv, rfl⟩
  rintro opened t ⟨kept, hand⟩
  rw [Program.wp_bind]
  refine (kept.inv.wp_makeUndoRoom hand _).mono ?_ fun e u => raises t e u kept
  rintro ⟨frame, page⟩ u ⟨kept', id, mine, inHand, here⟩
  obtain ⟨ownId, ownData⟩ := kept'.inv.inFrame inHand
  simp only [Program.wp_bind, Program.wp_get]
  rw [ownId, ownData]
  cases spaced : page.hasSpaceFor record.payload.length with
  | false =>
      have none : page.appendRecord (u.pool.lastWritten id).val record = none := by
        simp [UndoLogPage.appendRecord, spaced]
      rw [none]
      simp only [Program.wp_bind, wp_client, Program.wp_throw]
      refine (kept'.inv.serves.wp_giveBack inHand).mono ?_ fun _ _ never => never.elim
      rintro - pool ⟨same, -⟩
      exact ⟨⟨kept'.inv.same same, kept'.appended.trans kept.appended⟩, by decide⟩
  | true =>
      obtain ⟨page', data, wrote, packed⟩ :=
        (kept'.inv.packed id mine).append here small spaced
      simp only [wrote, Program.wp_bind, put_eq packed.sized, wp_client, Program.wp_pure]
      refine (kept'.inv.serves.wp_store inHand).mono ?_ fun _ _ never => never.elim
      rintro - pool ⟨serves, lastWritten, issued, handles⟩
      refine (serves.wp_giveBack (handles ▸ inHand)).mono ?_ fun _ _ never => never.elim
      rintro - pool' ⟨same, -⟩
      exact ⟨kept'.inv.appended mine same.serves (same.lastWritten.trans lastWritten)
        (same.issued.trans issued) packed, kept'.appended.trans kept.appended⟩

/-- Other clients leave the pages of the log as they are. -/
theorem Inv.traffic (inv : s.Inv) {call : PoolCall} {pool : PoolRun} (foreign : s.Foreign call)
    (taken : s.pool.step call = some pool) : ({ s with pool := pool } : UndoRun).Inv := by
  have kept : ∀ id ∈ s.undoPages, id ∈ pool.issued ∧ pool.lastWritten id = s.pool.lastWritten id := by
    intro id mine
    refine inv.serves.kept (inv.issued id mine) ?_ taken
    rintro frame data rfl
    exact foreign mine
  refine
    { serves := inv.serves.step call taken
      issued := fun id mine => (kept id mine).1
      current := inv.current
      packed := ?_
      owned := inv.owned }
  intro id mine
  simp only [(kept id mine).2]
  exact inv.packed id mine

theorem Inv.step (inv : s.Inv) (step : Step) (taken : s.step step = some s') : s'.Inv := by
  cases step with
  | append record =>
      simp only [UndoRun.step] at taken
      split at taken
      · rename_i small
        have holds := inv.wp_appendUndoRecord small
        unfold Program.wp at holds
        split at holds
        · rename_i pointer t ran
          rw [ran] at taken
          obtain rfl := Option.some.inj taken
          exact holds.1
        · rename_i e t ran
          rw [ran] at taken
          obtain rfl := Option.some.inj taken
          exact holds.1.inv
      · cases taken
  | traffic call =>
      simp only [UndoRun.step] at taken
      split at taken
      · rename_i foreign
        obtain ⟨pool, moved, rfl⟩ := Option.map_eq_some_iff.mp taken
        exact inv.traffic foreign moved
      · cases taken

theorem inv_of_run {maxPages : Nat} {frames : Nat → PageBytes} {drawn : Nat} {steps : List Step}
    (reached : Transition.run step (start maxPages frames drawn) steps = some s) : s.Inv :=
  Transition.invariant (inv_start maxPages frames drawn) (fun _ step _ inv taken => inv.step step taken)
    reached

/-! ## Records never change -/

/-- Every record that was appended is read back, from its own place in a page. A read
    fails only where the pool has no frame for the page. -/
structure Exact (s : UndoRun) : Prop where
  returned : ∀ entry ∈ s.appended, (getUndoRecord entry.1).wp
    (fun tuple _ => tuple.1.toNat = entry.2.payload.length ∧ tuple.2 = entry.2.payload)
    (fun e _ => e = "LRU manager is empty" ∧ s.pool.Full) s
  stored : ∀ entry ∈ s.appended, (client (PoolRun.fetch entry.1.pageId)).wp
    (fun frame t => UndoLogPage.readRecord (t.bytes frame) entry.1.slot = some entry.2)
    (fun e _ => e = "LRU manager is empty" ∧ s.pool.Full) s
  inPage : ∀ entry ∈ s.appended,
    UNDO_HEADER_SIZE ≤ entry.1.slot ∧ entry.1.slot + entry.2.size ≤ PAGE_SIZE
  distinct : (s.appended.map Prod.fst).Nodup
  apart : s.appended.Pairwise fun earlier later =>
    earlier.1.pageId = later.1.pageId → earlier.1.slot + earlier.2.size ≤ later.1.slot
  bounded : ∀ record : RawUndoRecord, record.payload.length < 2 ^ 16 →
    ((appendUndoRecord record).run s).1 ≠ .error OVERRUN

theorem mem_entries {entry : UndoPointer × RawUndoRecord} (member : entry ∈ s.appended) :
    (entry.1.slot, entry.2) ∈ s.entries entry.1.pageId :=
  List.mem_map.mpr ⟨entry, List.mem_filter.mpr ⟨member, beq_self_eq_true _⟩, rfl⟩

theorem Inv.stored (inv : s.Inv) {entry : UndoPointer × RawUndoRecord}
    (member : entry ∈ s.appended) :
    (client (PoolRun.fetch entry.1.pageId)).wp
      (fun frame t => t.Inv ∧ (entry.1.pageId, frame) ∈ t.pool.handles ∧
        UndoLogPage.readRecord (t.bytes frame) entry.1.slot = some entry.2)
      (fun e _ => e = "LRU manager is empty" ∧ s.pool.Full) s := by
  have mine := inv.owned entry member
  rw [wp_client]
  refine (inv.serves.wp_fetch (.inr (inv.issued _ mine))).mono ?_ ?_
  · rintro frame pool ⟨same, handles⟩
    have inv' := inv.same same
    have inHand : (entry.1.pageId, frame) ∈ pool.handles := handles ▸ List.mem_cons_self
    refine ⟨inv', inHand, ?_⟩
    rw [(inv'.inFrame inHand).2]
    exact (inv'.packed _ mine).readRecord (mem_entries member)
  · rintro e pool ⟨rfl, rfl, full⟩
    exact ⟨rfl, full⟩

theorem Inv.inPage (inv : s.Inv) {entry : UndoPointer × RawUndoRecord}
    (member : entry ∈ s.appended) :
    UNDO_HEADER_SIZE ≤ entry.1.slot ∧ entry.1.slot + entry.2.size ≤ PAGE_SIZE := by
  have packed := inv.packed _ (inv.owned entry member)
  obtain ⟨front, inside⟩ := packed.inside _ (mem_entries member)
  exact ⟨front, inside.trans packed.free⟩

theorem Inv.apart (inv : s.Inv) : s.appended.Pairwise fun earlier later =>
    earlier.1.pageId = later.1.pageId → earlier.1.slot + earlier.2.size ≤ later.1.slot := by
  refine List.pairwise_iff_forall_sublist.mpr fun {earlier later} sub same => ?_
  have packed := inv.packed _ (inv.owned later (sub.subset (by simp)))
  have here : [(earlier.1.slot, earlier.2), (later.1.slot, later.2)].Sublist
      (s.entries later.1.pageId) := by
    have kept := (sub.filter fun entry => entry.1.pageId == later.1.pageId).map fun entry =>
      (entry.1.slot, entry.2)
    simpa [entries, same] using kept
  exact List.pairwise_iff_forall_sublist.mp packed.apart here

theorem Inv.exact (inv : s.Inv) : s.Exact where
  returned := by
    intro entry member
    rw [getUndoRecord, Program.wp_bind]
    refine (inv.stored member).mono ?_ fun _ _ full => full
    rintro frame t ⟨inv', inHand, read⟩
    simp only [Program.wp_bind, Program.wp_get, read, (inv'.inFrame inHand).1, wp_client,
      Program.wp_pure]
    refine (inv'.serves.wp_giveBack inHand).mono ?_ fun _ _ never => never.elim
    rintro - pool -
    have inside := (inv.inPage member).2
    refine ⟨UInt16.toNat_ofNat_of_lt' ?_, trivial⟩
    unfold RawUndoRecord.size UNDO_RECORD_OVERHEAD PAGE_SIZE at inside
    show _ < 65536
    omega
  stored entry member := (inv.stored member).mono (fun _ _ fetched => fetched.2.2) fun _ _ full => full
  inPage entry member := inv.inPage member
  distinct := by
    refine List.pairwise_map.mpr (inv.apart.imp fun {earlier later} apart same => ?_)
    have behind := apart (congrArg UndoPointer.pageId same)
    rw [same] at behind
    unfold RawUndoRecord.size UNDO_RECORD_OVERHEAD at behind
    omega
  apart := inv.apart
  bounded := by
    intro record small overrun
    have holds := inv.wp_appendUndoRecord small
    unfold Program.wp at holds
    split at holds
    · rename_i ran
      rw [ran] at overrun
      cases overrun
    · rename_i ran
      rw [ran] at overrun
      exact holds.2 (Except.error.inj overrun)

/-- Whatever is appended and whatever else the pool is used for, each record that was
    appended keeps its place and its content. -/
theorem records_never_change (maxPages : Nat) (frames : Nat → PageBytes) (drawn : Nat) (steps : List Step)
    (reached : Transition.run step (start maxPages frames drawn) steps = some s) : s.Exact :=
  (inv_of_run reached).exact

set_option maxRecDepth 100000 in
theorem records_never_change_oneRecord : ∃ s, Transition.run step (start 1 (fun _ => onePage) 0)
      [.append ⟨0, 0, 7, [1, 2, 3]⟩, .traffic .newPage, .traffic (.write 2 0 onePage),
        .traffic (.release 2)] = some s ∧ s.appended.length = 1 ∧ s.Exact :=
  ⟨_, rfl, rfl, records_never_change 1 (fun _ => onePage) 0
    [.append ⟨0, 0, 7, [1, 2, 3]⟩, .traffic .newPage, .traffic (.write 2 0 onePage),
      .traffic (.release 2)] rfl⟩

end UndoRun

end YourSQL
