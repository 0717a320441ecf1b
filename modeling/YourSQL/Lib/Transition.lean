import Mathlib.Data.List.Induction

/-! # Runs of a guarded step function

A system is a step function `σ → α → Option σ`: the next state, or `none` when
the action is not enabled. A run is the left fold of a list of actions. The
rules below are the only inductions on runs that a model needs: one carries an
invariant of the state, one an invariant that also mentions the actions executed
so far, and one compares what holds in every state with what every step obeys.
-/

namespace Transition

variable {σ : Type u} {α : Type v} {step : σ → α → Option σ}

/-- The state after a list of actions, if each of them was enabled. -/
def run (step : σ → α → Option σ) (s : σ) (actions : List α) : Option σ :=
  actions.foldlM step s

@[simp] theorem run_nil (s : σ) : run step s [] = some s := rfl

@[simp] theorem run_cons (s : σ) (a : α) (actions : List α) :
    run step s (a :: actions) = (step s a).bind (run step · actions) := rfl

theorem run_append (s : σ) (first second : List α) :
    run step s (first ++ second) = (run step s first).bind (run step · second) :=
  List.foldlM_append

theorem run_snoc (s : σ) (actions : List α) (a : α) :
    run step s (actions ++ [a]) = (run step s actions).bind (step · a) := by
  rw [run_append]
  congr 1
  funext t
  simp [run_cons]

/-- A property that every enabled action preserves holds at the end of a run. -/
theorem invariant {good : σ → Prop} {s s' : σ} {actions : List α}
    (start : good s)
    (preserved : ∀ t a t', good t → step t a = some t' → good t')
    (reached : run step s actions = some s') : good s' := by
  induction actions generalizing s with
  | nil =>
      obtain rfl : s = s' := by simpa using reached
      exact start
  | cons a rest ih =>
      obtain ⟨t, taken, later⟩ := Option.bind_eq_some_iff.mp reached
      exact ih (preserved s a t start taken) later

/-- The same rule for a property of the executed actions and the state together. -/
theorem traceInvariant {good : List α → σ → Prop} {s : σ}
    (start : good [] s)
    (preserved : ∀ done t a t', run step s done = some t → good done t →
      step t a = some t' → good (done ++ [a]) t') :
    ∀ actions s', run step s actions = some s' → good actions s' := by
  intro actions
  induction actions using List.reverseRecOn with
  | nil =>
      intro s' reached
      obtain rfl : s = s' := by simpa using reached
      exact start
  | append_singleton done a ih =>
      intro s' reached
      rw [run_snoc] at reached
      obtain ⟨t, before, taken⟩ := Option.bind_eq_some_iff.mp reached
      exact preserved done t a s' before (ih t before) taken

/-- The property holds in every state that the run visits, its first included. -/
def AllStates (step : σ → α → Option σ) (good : σ → Prop) : σ → List α → Prop
  | s, [] => good s
  | s, a :: rest => good s ∧ ∀ t, step s a = some t → AllStates step good t rest

/-- Every step of the run obeys the rule in the state it starts from. -/
def AllSteps (step : σ → α → Option σ) (obeys : σ → α → Prop) : σ → List α → Prop
  | _, [] => True
  | s, a :: rest => obeys s a ∧ ∀ t, step s a = some t → AllSteps step obeys t rest

instance decidableAllSteps {obeys : σ → α → Prop} [∀ s a, Decidable (obeys s a)] :
    (s : σ) → (actions : List α) → Decidable (AllSteps step obeys s actions)
  | _, [] => .isTrue trivial
  | s, a :: rest =>
      match taken : step s a with
      | none => decidable_of_iff (obeys s a) (by simp [AllSteps, taken])
      | some t =>
          have : Decidable (AllSteps step obeys t rest) := decidableAllSteps t rest
          decidable_of_iff (obeys s a ∧ AllSteps step obeys t rest) (by simp [AllSteps, taken])

theorem AllStates.head {good : σ → Prop} {s : σ} {actions : List α}
    (all : AllStates step good s actions) : good s := by
  cases actions with
  | nil => exact all
  | cons a rest => exact all.1

/-- A rule passes to another one that it implies under an invariant it keeps. -/
theorem AllSteps.imp {inv : σ → Prop} {obeys other : σ → α → Prop} {s : σ} {actions : List α}
    (start : inv s)
    (preserved : ∀ t a t', inv t → obeys t a → step t a = some t' → inv t')
    (implies : ∀ t a, inv t → obeys t a → other t a)
    (all : AllSteps step obeys s actions) : AllSteps step other s actions := by
  induction actions generalizing s with
  | nil => trivial
  | cons a rest ih =>
      obtain ⟨obeyed, later⟩ := all
      exact ⟨implies s a start obeyed, fun t taken =>
        ih (preserved s a t start obeyed taken) (later t taken)⟩

/-- Two rules that say the same under an invariant that the first one keeps are obeyed by
    the same runs. -/
theorem allSteps_congr {inv : σ → Prop} {obeys other : σ → α → Prop} {s : σ} {actions : List α}
    (start : inv s)
    (preserved : ∀ t, ∀ a ∈ actions, ∀ t', inv t → obeys t a → step t a = some t' → inv t')
    (same : ∀ t, ∀ a ∈ actions, inv t → (obeys t a ↔ other t a)) :
    AllSteps step obeys s actions ↔ AllSteps step other s actions := by
  induction actions generalizing s with
  | nil => exact Iff.rfl
  | cons a rest ih =>
      have here := same s a (List.mem_cons_self ..) start
      constructor
      · rintro ⟨obeyed, later⟩
        refine ⟨here.mp obeyed, fun t taken => ?_⟩
        have kept := preserved s a (List.mem_cons_self ..) t start obeyed taken
        exact (ih kept (fun u b member => preserved u b (List.mem_cons_of_mem _ member))
          fun u b member => same u b (List.mem_cons_of_mem _ member)).mp (later t taken)
      · rintro ⟨obeyed, later⟩
        refine ⟨here.mpr obeyed, fun t taken => ?_⟩
        have kept := preserved s a (List.mem_cons_self ..) t start (here.mpr obeyed) taken
        exact (ih kept (fun u b member => preserved u b (List.mem_cons_of_mem _ member))
          fun u b member => same u b (List.mem_cons_of_mem _ member)).mpr (later t taken)

/-- In a run that obeys a rule which keeps an invariant, every state is as good as the
    invariant makes it. -/
theorem AllSteps.allStates {inv good : σ → Prop} {obeys : σ → α → Prop} {s : σ}
    {actions : List α} (all : AllSteps step obeys s actions) (start : inv s)
    (sound : ∀ t, inv t → good t)
    (preserved : ∀ t a t', inv t → obeys t a → step t a = some t' → inv t') :
    AllStates step good s actions := by
  induction actions generalizing s with
  | nil => exact sound s start
  | cons a rest ih =>
      obtain ⟨obeyed, later⟩ := all
      exact ⟨sound s start, fun t taken =>
        ih (later t taken) (preserved s a t start obeyed taken)⟩

/-- A rule that keeps an invariant, and whose breach shows in the next state, is obeyed
    by exactly the runs in which every state is good. -/
theorem allStates_iff_allSteps {inv good : σ → Prop} {obeys : σ → α → Prop} {s s' : σ}
    {actions : List α} (start : inv s)
    (sound : ∀ t, inv t → good t)
    (preserved : ∀ t a t', inv t → obeys t a → step t a = some t' → inv t')
    (shows : ∀ t a t', inv t → ¬ obeys t a → step t a = some t' → ¬ good t')
    (reached : run step s actions = some s') :
    AllStates step good s actions ↔ AllSteps step obeys s actions := by
  induction actions generalizing s with
  | nil => exact ⟨fun _ => trivial, fun _ => sound s start⟩
  | cons a rest ih =>
      obtain ⟨t, taken, later⟩ := Option.bind_eq_some_iff.mp reached
      constructor
      · rintro ⟨_, states⟩
        have obeyed : obeys s a := by
          by_contra breach
          exact shows s a t start breach taken (states t taken).head
        refine ⟨obeyed, fun t' taken' => ?_⟩
        obtain rfl : t = t' := Option.some.inj (taken.symm.trans taken')
        exact (ih (preserved s a t start obeyed taken) later).mp (states t taken)
      · rintro ⟨obeyed, steps⟩
        refine ⟨sound s start, fun t' taken' => ?_⟩
        obtain rfl : t = t' := Option.some.inj (taken.symm.trans taken')
        exact (ih (preserved s a t start obeyed taken) later).mpr (steps t taken)

end Transition
