import Mathlib.Data.List.Basic

/-! # Replaying a log

A state remembers which entries of a log it has seen, and an entry that it has seen does
nothing more. Then a log can be replayed from its beginning again, whenever the replay was
interrupted and as often as it was.
-/

namespace Replay

variable {σ : Type u} {α : Type v} {step : σ → α → σ} {seen : σ → α → Prop}

def replay (step : σ → α → σ) (s : σ) (log : List α) : σ := log.foldl step s

/-- Entries are seen once they were replayed, and from then on they are skipped. -/
structure Guarded (step : σ → α → σ) (seen : σ → α → Prop) : Prop where
  skip : ∀ s a, seen s a → step s a = s
  marks : ∀ s a, seen (step s a) a
  keeps : ∀ s a b, seen s a → seen (step s b) a

theorem replay_append (s : σ) (first second : List α) :
    replay step s (first ++ second) = replay step (replay step s first) second :=
  List.foldl_append

namespace Guarded

theorem keeps_replay (guarded : Guarded step seen) {s : σ} {a : α} (before : seen s a)
    (log : List α) : seen (replay step s log) a := by
  induction log generalizing s with
  | nil => exact before
  | cons b rest ih => exact ih (guarded.keeps s a b before)

theorem seen_replay (guarded : Guarded step seen) (s : σ) (log : List α) :
    ∀ a ∈ log, seen (replay step s log) a := by
  induction log generalizing s with
  | nil => simp
  | cons b rest ih =>
      intro a member
      rcases List.mem_cons.mp member with rfl | later
      · exact guarded.keeps_replay (guarded.marks s a) rest
      · exact ih (step s b) a later

theorem replay_of_seen (guarded : Guarded step seen) {s : σ} {log : List α}
    (all : ∀ a ∈ log, seen s a) : replay step s log = s := by
  induction log with
  | nil => rfl
  | cons a rest ih =>
      have skipped := guarded.skip s a (all a (List.mem_cons_self ..))
      calc replay step s (a :: rest) = replay step (step s a) rest := rfl
        _ = replay step s rest := by rw [skipped]
        _ = s := ih fun b member => all b (List.mem_cons_of_mem _ member)

/-- A replay that stopped somewhere can be started over. -/
theorem replay_again (guarded : Guarded step seen) (s : σ) (first rest : List α) :
    replay step (replay step s first) (first ++ rest) = replay step s (first ++ rest) := by
  rw [replay_append, guarded.replay_of_seen (guarded.seen_replay s first), ← replay_append]

end Guarded

end Replay
