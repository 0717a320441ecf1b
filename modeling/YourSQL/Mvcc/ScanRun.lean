import YourSQL.Mvcc.RowStates

/-! # A whole SELECT

A scan shows of each record what the transaction is shown of the states at its address,
in the order of the addresses, and changes nothing but the pool.
-/

namespace YourSQL

open Mvcc (Rep seenBy shownAt)

variable {s u u' : Database} {pages : Nat → List Nat} {tableOf : Nat → Nat} {trx t : Nat}
  {filter : Option Filter} {rid : RID} {record : Record}

/-- What a scan makes of a stored record. -/
theorem run_visibleVersion_stored (sound : s.Sound pages tableOf) (rep : Rep (s.versions tableOf))
    (active : trx ∈ s.txnManager.activeTxns)
    (stored : (s.versions tableOf).slot rid = some ⟨t, record⟩) :
    ∃ shown s', (ExecutorSeqScan.visibleVersion (some trx) record).run s = (.ok shown, s') ∧
      shown.map Record.payload = shownAt s.journal trx rid ∧ s.FilesOnly s' := by
  have inv : Mvcc.ManagerInv s.txnManager s.journal := rep.manager
  obtain ⟨view, has, -⟩ := inv.views trx active
  rcases rep.record_states stored with ⟨alive, versions, leads, states, known⟩ | ⟨dead, nothing⟩
  · obtain ⟨s', ran, files⟩ := run_visibleVersion sound leads alive has
    refine ⟨_, s', ran, ?_, files⟩
    rw [Mvcc.payload_firstSeen, states]
    exact Mvcc.shownOf_congr fun state member =>
      Database.isVisibleTo_eq inv active (known state member)
  · refine ⟨none, s, run_visibleVersion_of_dead dead _, ?_, .refl s⟩
    rw [shownAt, show Mvcc.statesAt s.journal rid = [] from nothing]
    rfl

/-- The rows that a scan has come to. -/
structure Scanning (s : Database) (pages : Nat → List Nat) (tableOf : Nat → Nat) (trx t : Nat)
    (filter : Option Filter) (left : List RID) (rows : List Record) (u : Database) : Prop where
  pool : s.PoolOnly u
  sound : u.Sound pages tableOf
  done : ∃ done, s.addresses (pages t) = done ++ left ∧
    (rows.map Record.payload = (done.filterMap (shownAt s.journal trx)).filter
      fun payload => decide (passes filter payload = .ok true)) ∧
    ∀ rid ∈ done, ∀ payload, shownAt s.journal trx rid = some payload →
      ∃ isMatch, passes filter payload = .ok isMatch

/-- The test of a row has raised an exception. -/
structure ScanRaised (s : Database) (pages : Nat → List Nat) (tableOf : Nat → Nat) (trx t : Nat)
    (filter : Option Filter) (u : Database) : Prop where
  pool : s.PoolOnly u
  sound : u.Sound pages tableOf
  reason : ∃ rid ∈ s.addresses (pages t), ∃ payload, shownAt s.journal trx rid = some payload ∧
    ∃ message, passes filter payload = .error message

theorem Scanning.step {rest : List RID} {rows rows' : List Record} {shown : Option Record}
    (scanning : Scanning s pages tableOf trx t filter (rid :: rest) rows u)
    (shows : shown.map Record.payload = shownAt s.journal trx rid) (pool : u.PoolOnly u')
    (sound : u'.Sound pages tableOf)
    (passed : ∀ version, shown = some version →
      ∃ isMatch, passes filter version.payload = .ok isMatch)
    (more : rows' = rows ++ (shown.filter fun version =>
      decide (passes filter version.payload = .ok true)).toList) :
    Scanning s pages tableOf trx t filter rest rows' u' := by
  obtain ⟨done, split, so_far, before⟩ := scanning.done
  refine
    { pool := scanning.pool.trans pool
      sound := sound
      done := ⟨done ++ [rid], by simp [split], ?_, ?_⟩ }
  · rw [more, List.map_append, so_far, List.filterMap_append, List.filter_append]
    congr 1
    cases shown with
    | none =>
        have none : shownAt s.journal trx rid = none := shows.symm
        simp [none]
    | some version =>
        have some : shownAt s.journal trx rid = some version.payload := shows.symm
        cases isMatch : decide (passes filter version.payload = .ok true) <;>
          simp_all [Option.filter]
  · intro other member payload shown_there
    rcases List.mem_append.mp member with earlier | last
    · exact before other earlier payload shown_there
    · obtain rfl := List.mem_singleton.mp last
      rw [← shows, Option.map_eq_some_iff] at shown_there
      obtain ⟨version, rfl, rfl⟩ := shown_there
      exact passed version rfl

theorem wp_scanRound {it : TableIterator} {rest : List RID} {rows : List Record}
    (rep : Rep (s.versions tableOf)) (active : trx ∈ s.txnManager.activeTxns)
    (stands : it.Stands u pages tableOf t (rid :: rest))
    (scanning : Scanning s pages tableOf trx t filter (rid :: rest) rows u) :
    (ExecutorSeqScan.round (some trx) filter it rows).wp
      (fun next u' => next.1.Stands u' pages tableOf t rest ∧
        Scanning s pages tableOf trx t filter rest next.2 u')
      (fun _ u' => ScanRaised s pages tableOf trx t filter u') u := by
  obtain ⟨record, current, stored⟩ := stands.run_current scanning.sound
  obtain ⟨it', u₁, advanced, stands₁, pool₁, sound₁, -⟩ := stands.run_advance scanning.sound
  have pool := scanning.pool.trans pool₁
  have rep₁ : Rep (u₁.versions tableOf) := pool.versions tableOf ▸ rep
  have active₁ : trx ∈ u₁.txnManager.activeTxns := pool.txnManager ▸ active
  have stored₁ : (u₁.versions tableOf).slot rid = some ⟨t, record⟩ :=
    pool₁.versions tableOf ▸ stored
  obtain ⟨shown, u₂, ran, shows, pool₂, pins₂⟩ :=
    run_visibleVersion_stored sound₁ rep₁ active₁ stored₁
  have sound₂ := pool₂.sound sound₁ (pins₂ ▸ sound₁.consistent.pinned)
  have stands₂ := stands₁.pool pool₂ pins₂
  have shown_here : shown.map Record.payload = shownAt s.journal trx rid := pool.journal ▸ shows
  have pool₁₂ := pool₁.trans pool₂
  unfold ExecutorSeqScan.round
  rw [Program.wp_bind, Program.wp_of_ok current]
  dsimp only
  rw [Program.wp_bind, Program.wp_of_ok advanced, Program.wp_bind, Program.wp_of_ok ran]
  cases shown with
  | none => exact ⟨stands₂, scanning.step shown_here pool₁₂ sound₂ nofun (by simp)⟩
  | some version =>
      have failed : ∀ {message : String}, passes filter version.payload = .error message →
          ScanRaised s pages tableOf trx t filter u₂ := by
        intro message failed
        obtain ⟨done, split, -⟩ := scanning.done
        exact
          { pool := pool.trans pool₂
            sound := sound₂
            reason :=
              ⟨rid, by simp [split], version.payload, shown_here.symm, message, failed⟩ }
      have passed : ∀ {rows' : List Record} {isMatch : Bool},
          passes filter version.payload = .ok isMatch →
          rows' = rows ++ (if isMatch then [version] else []) →
          Scanning s pages tableOf trx t filter rest rows' u₂ := by
        intro rows' isMatch decision more
        apply scanning.step shown_here pool₁₂ sound₂
        · rintro _ ⟨⟩
          exact ⟨isMatch, decision⟩
        · rw [more]
          cases isMatch <;> simp [decision, Option.filter]
      cases filter with
      | none => exact ⟨stands₂, passed rfl rfl⟩
      | some filter =>
          dsimp only
          cases computed : filter version.payload with
          | error message =>
              apply failed
              rw [passes, computed]
              rfl
          | ok value =>
              have decided : passes (some filter) version.payload = value.getBool := by
                rw [passes, computed]
                rfl
              rw [Program.wp_bind, Program.wp_of_ok (Program.run_lift (.ok value) u₂),
                Program.wp_bind]
              cases decision : value.getBool with
              | error message => exact failed (decided.trans decision)
              | ok isMatch =>
                  rw [Program.wp_of_ok (Program.run_lift (.ok isMatch) u₂)]
                  have next := @passed _ isMatch (decided.trans decision) rfl
                  cases isMatch with
                  | true => exact ⟨stands₂, next⟩
                  | false =>
                      refine ⟨stands₂, ?_⟩
                      rw [if_neg Bool.false_ne_true, List.append_nil] at next
                      exact next

theorem wp_select (start : s.Sound pages tableOf) (rep : Rep (s.versions tableOf))
    (active : trx ∈ s.txnManager.activeTxns) (t : Nat) (filter : Option Filter) :
    (ExecutorSeqScan.select (some trx) t filter).wp
      (fun rows s' => Scanning s pages tableOf trx t filter [] rows s')
      (fun _ s' => ScanRaised s pages tableOf trx t filter s' ∨
        s.items t = none ∧ s' = s) s := by
  unfold ExecutorSeqScan.select
  rw [Program.wp_bind]
  cases entry : s.items t with
  | none =>
      rw [Program.wp_of_error (TableIterator.run_create_of_none entry)]
      exact .inr ⟨rfl, rfl⟩
  | some item =>
      obtain ⟨it, s₁, created, stands, pool, sound₁, -⟩ := TableIterator.run_create start entry
      rw [Program.wp_of_ok created, Program.wp_bind, Program.wp_get]
      have enough : (s.addresses (pages t)).length ≤ s₁.slotCount := by
        rw [← Database.addresses_congr pool.rowCount]
        exact (sound₁.bounds t).2
      have begun : Scanning s pages tableOf trx t filter (s.addresses (pages t)) [] s₁ :=
        { pool := pool
          sound := sound₁
          done := ⟨[], rfl, rfl, nofun⟩ }
      apply (TableIterator.wp_whileNotEnd _ enough stands begun).mono
      · exact fun _ _ scanning => scanning
      · exact fun _ _ raises => .inl raises
      · intro it rid rest acc u stands scanning
        exact wp_scanRound rep active stands scanning

end YourSQL
