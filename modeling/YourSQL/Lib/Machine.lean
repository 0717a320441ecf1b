import Mathlib.Data.List.Forall2

/-! # Machines with outputs

A machine takes an input, answers it and goes on to its next state. Two machines that take
the same inputs are compared step by step: a relation between their states is kept as long
as the second one admits the inputs, and in related states the answers agree.
-/

namespace Machine

variable {σ : Type u} {τ : Type v} {α : Type w} {β : Type x} {γ : Type y}
  {step : σ → α → β × σ} {step' : τ → α → γ × τ}

/-- The answers to some inputs, in their order. -/
def outputs (step : σ → α → β × σ) : σ → List α → List β
  | _, [] => []
  | s, a :: rest => (step s a).1 :: outputs step (step s a).2 rest

/-- The state after some inputs. -/
def run (step : σ → α → β × σ) (s : σ) (inputs : List α) : σ :=
  inputs.foldl (fun s a => (step s a).2) s

@[simp] theorem outputs_nil (s : σ) : outputs step s [] = [] := rfl

@[simp] theorem outputs_cons (s : σ) (a : α) (rest : List α) :
    outputs step s (a :: rest) = (step s a).1 :: outputs step (step s a).2 rest := rfl

@[simp] theorem run_nil (s : σ) : run step s [] = s := rfl

@[simp] theorem run_cons (s : σ) (a : α) (rest : List α) :
    run step s (a :: rest) = run step (step s a).2 rest := rfl

/-- Every input is admitted in the state in which it comes. -/
def Admits (step : σ → α → β × σ) (admits : σ → α → Prop) : σ → List α → Prop
  | _, [] => True
  | s, a :: rest => admits s a ∧ Admits step admits (step s a).2 rest

instance decidableAdmits {admits : σ → α → Prop} [∀ s a, Decidable (admits s a)] :
    (s : σ) → (inputs : List α) → Decidable (Admits step admits s inputs)
  | _, [] => .isTrue trivial
  | s, a :: rest =>
      have : Decidable (Admits step admits (step s a).2 rest) :=
        decidableAdmits (step s a).2 rest
      inferInstanceAs (Decidable (admits s a ∧ Admits step admits (step s a).2 rest))

/-- What every input keeps holds after all of them. -/
theorem invariant {inv : σ → Prop} {s : σ} (start : inv s)
    (keeps : ∀ s a, inv s → inv (step s a).2) (inputs : List α) : inv (run step s inputs) := by
  induction inputs generalizing s with
  | nil => exact start
  | cons a rest ih => exact ih (keeps s a start)

/-- A relation that every admitted input keeps, and under which the answers agree. -/
theorem simulates {related : σ → τ → Prop} {agree : β → γ → Prop} {admits : τ → α → Prop}
    (each : ∀ s t a, related s t → admits t a →
      agree (step s a).1 (step' t a).1 ∧ related (step s a).2 (step' t a).2)
    {s : σ} {t : τ} (start : related s t) {inputs : List α}
    (admitted : Admits step' admits t inputs) :
    List.Forall₂ agree (outputs step s inputs) (outputs step' t inputs) ∧
      related (run step s inputs) (run step' t inputs) := by
  induction inputs generalizing s t with
  | nil => exact ⟨.nil, start⟩
  | cons a rest ih =>
      obtain ⟨here, later⟩ := admitted
      obtain ⟨agrees, next⟩ := each s t a start here
      obtain ⟨others, last⟩ := ih next later
      exact ⟨.cons agrees others, last⟩

end Machine
