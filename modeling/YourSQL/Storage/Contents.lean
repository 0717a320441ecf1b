import YourSQL.Storage.RecordStore
import Mathlib.Data.Finset.Card

/-! # What a table holds

The rows of a table are the bytes of its live records, in no order, each as often as there
are records of it. A record that is deleted takes its row away, and a new one brings one.
-/

namespace YourSQL.RecordStore

variable {σ τ : RecordStore} {t : Nat} {rid : RID} {rows rows' : Multiset (List UInt8)}

def payloadAt (σ : RecordStore) (rid : RID) : List UInt8 :=
  ((σ.slot rid).map fun slot => slot.record.payload).getD []

/-- The rows of the table. -/
def Holds (σ : RecordStore) (t : Nat) (rows : Multiset (List UInt8)) : Prop :=
  ∃ rids : Finset RID, (∀ rid, rid ∈ rids ↔ rid ∈ σ.liveSet t) ∧ rows = rids.val.map σ.payloadAt

theorem payloadAt_of_slot {slot : Slot} (found : σ.slot rid = some slot) :
    σ.payloadAt rid = slot.record.payload := by
  rw [payloadAt, found]
  rfl

theorem payloadAt_put_of_ne {other : RID} (ne : other ≠ rid) (slot : Slot) :
    (σ.put rid slot).payloadAt other = σ.payloadAt other := by
  rw [payloadAt, slot_put_of_ne σ ne, payloadAt]

namespace Holds

theorem congr (holds : σ.Holds t rows) (slot : τ.slot = σ.slot) : τ.Holds t rows := by
  obtain ⟨rids, live, rfl⟩ := holds
  refine ⟨rids, ?_, ?_⟩
  · intro rid
    rw [live, liveSet, liveSet, slot]
  · apply Multiset.map_congr rfl
    intro rid _
    rw [payloadAt, payloadAt, slot]

/-- There is one multiset of rows. -/
theorem unique (holds : σ.Holds t rows) (holds' : σ.Holds t rows') : rows = rows' := by
  obtain ⟨rids, live, rfl⟩ := holds
  obtain ⟨rids', live', rfl⟩ := holds'
  obtain rfl : rids = rids' := Finset.ext fun rid => (live rid).trans (live' rid).symm
  rfl

/-- The live records, listed without repetition. -/
theorem of_nodup {rids : List RID} (nodup : rids.Nodup)
    (live : ∀ rid, rid ∈ rids ↔ rid ∈ σ.liveSet t) : σ.Holds t (rids.map σ.payloadAt) :=
  ⟨⟨rids, nodup⟩, live, rfl⟩

/-- A live record is written over with one that is not. -/
theorem delete (holds : σ.Holds t rows) {old new : Record} (stored : σ.slot rid = some ⟨t, old⟩)
    (isLive : old.isLive = true) (dead : new.isLive = false) :
    ∃ rest, rows = old.payload ::ₘ rest ∧ (σ.put rid ⟨t, new⟩).Holds t rest := by
  obtain ⟨rids, live, rfl⟩ := holds
  have member : rid ∈ rids := (live rid).mpr ⟨old, stored, isLive⟩
  refine ⟨(rids.erase rid).val.map σ.payloadAt, ?_, rids.erase rid, ?_, ?_⟩
  · rw [← payloadAt_of_slot stored, ← Multiset.map_cons, Finset.erase_val,
      Multiset.cons_erase (Finset.mem_val.mpr member)]
  · intro other
    rw [Finset.mem_erase, live, mem_liveSet_put]
    by_cases same : other = rid
    · simp [same, dead]
    · simp [same]
  · apply Multiset.map_congr rfl
    intro other inRest
    exact (payloadAt_put_of_ne (Finset.ne_of_mem_erase inRest) _).symm

/-- A live record is stored at a free address. -/
theorem insert (holds : σ.Holds t rows) {new : Record} (unused : σ.slot rid = none)
    (isLive : new.isLive = true) : (σ.put rid ⟨t, new⟩).Holds t (new.payload ::ₘ rows) := by
  obtain ⟨rids, live, rfl⟩ := holds
  have absent : rid ∉ rids := fun member => not_mem_liveSet_of_none unused t ((live rid).mp member)
  refine ⟨Insert.insert rid rids, ?_, ?_⟩
  · intro other
    rw [Finset.mem_insert, live, mem_liveSet_put]
    by_cases same : other = rid
    · simp [same, isLive]
    · simp [same]
  · rw [Finset.insert_val_of_notMem absent, Multiset.map_cons,
      payloadAt_of_slot (slot_put_self σ rid ⟨t, new⟩)]
    congr 1
    apply Multiset.map_congr rfl
    intro other member
    have apart : other ≠ rid := by
      rintro rfl
      exact absent member
    exact (payloadAt_put_of_ne apart _).symm

end Holds

/-! ## Other tables -/

/-- The records of all other tables are the same. -/
def Within (t : Nat) (σ τ : RecordStore) : Prop :=
  ∀ rid slot, slot.tableId ≠ t → (τ.slot rid = some slot ↔ σ.slot rid = some slot)

namespace Within

variable {υ : RecordStore} {t' : Nat}

theorem of_slot (slot : τ.slot = σ.slot) (t : Nat) : Within t σ τ :=
  fun rid _ _ => by rw [slot]

theorem trans (first : Within t σ τ) (second : Within t τ υ) : Within t σ υ :=
  fun rid slot other => (second rid slot other).trans (first rid slot other)

/-- A record of the table is written over, or there was none. -/
theorem put (mine : ∀ slot, σ.slot rid = some slot → slot.tableId = t) (new : Record) :
    Within t σ (σ.put rid ⟨t, new⟩) := by
  intro other slot notMine
  by_cases same : other = rid
  · subst same
    rw [slot_put_self]
    refine iff_of_false ?_ fun stored => notMine (mine slot stored)
    intro stored
    cases stored
    exact notMine rfl
  · rw [slot_put_of_ne σ same]

theorem holds (within : Within t σ τ) (other : t' ≠ t) (holds : σ.Holds t' rows) :
    τ.Holds t' rows := by
  obtain ⟨rids, live, rfl⟩ := holds
  refine ⟨rids, ?_, ?_⟩
  · intro rid
    rw [live]
    exact exists_congr fun record => and_congr_left fun _ => (within rid _ other).symm
  · apply Multiset.map_congr rfl
    intro rid member
    obtain ⟨record, stored, -⟩ := (live rid).mp member
    rw [payloadAt_of_slot stored, payloadAt_of_slot ((within rid _ other).mpr stored)]

end Within

/-- The rows of every table. -/
def HoldsAll (σ : RecordStore) (contents : Nat → Multiset (List UInt8)) : Prop :=
  ∀ t, σ.Holds t (contents t)

namespace HoldsAll

variable {contents : Nat → Multiset (List UInt8)}

theorem congr (holds : σ.HoldsAll contents) (slot : τ.slot = σ.slot) : τ.HoldsAll contents :=
  fun t => (holds t).congr slot

/-- The rows of one table are others. -/
theorem within (holds : σ.HoldsAll contents) (within : Within t σ τ) (there : τ.Holds t rows) :
    τ.HoldsAll (Function.update contents t rows) := by
  intro t'
  by_cases same : t' = t
  · subst same
    rw [Function.update_self]
    exact there
  · rw [Function.update_of_ne same]
    exact within.holds same (holds t')

end HoldsAll

end YourSQL.RecordStore
