import Mathlib.Data.List.Basic

/-! # Programs whose state survives an exception

A command changes a state and returns a value or raises an exception; in both
cases the changes made so far stay. `wp` is the weakest precondition for a pair of
postconditions, one for each way to end. Its rules are equivalences, so a command
is unfolded by rewriting and a call is replaced by what its run is known to do.
-/

structure Program (σ ε α : Type) where
  run : σ → Except ε α × σ

namespace Program

variable {σ ε α β : Type}

instance : Monad (Program σ ε) where
  pure a := ⟨fun s => (.ok a, s)⟩
  bind x f := ⟨fun s =>
    match x.run s with
    | (.ok a, t) => (f a).run t
    | (.error e, t) => (.error e, t)⟩

instance : MonadStateOf σ (Program σ ε) where
  get := ⟨fun s => (.ok s, s)⟩
  set t := ⟨fun _ => (.ok ⟨⟩, t)⟩
  modifyGet f := ⟨fun s => (.ok (f s).1, (f s).2)⟩

instance : MonadExceptOf ε (Program σ ε) where
  throw e := ⟨fun s => (.error e, s)⟩
  tryCatch x handler := ⟨fun s =>
    match x.run s with
    | (.ok a, t) => (.ok a, t)
    | (.error e, t) => (handler e).run t⟩

/-- A value or exception that was computed without touching the state. -/
def lift (x : Except ε α) : Program σ ε α := ⟨fun s => (x, s)⟩

/-- The run ends in `post`, or in `raised` if it ends with an exception. -/
def wp (x : Program σ ε α) (post : α → σ → Prop) (raised : ε → σ → Prop) (s : σ) : Prop :=
  match x.run s with
  | (.ok a, t) => post a t
  | (.error e, t) => raised e t

variable {x : Program σ ε α} {f : α → Program σ ε β} {s t : σ}
  {post post' : α → σ → Prop} {raised raised' : ε → σ → Prop}

@[simp] theorem run_pure (a : α) (s : σ) : (pure a : Program σ ε α).run s = (.ok a, s) := rfl

theorem run_bind (x : Program σ ε α) (f : α → Program σ ε β) (s : σ) :
    (x >>= f).run s =
      match x.run s with
      | (.ok a, t) => (f a).run t
      | (.error e, t) => (.error e, t) := rfl

theorem run_bind_of_ok {a : α} (ran : x.run s = (.ok a, t)) :
    (x >>= f).run s = (f a).run t := by
  rw [run_bind, ran]

theorem run_bind_of_error {e : ε} (ran : x.run s = (.error e, t)) :
    (x >>= f).run s = (.error e, t) := by
  rw [run_bind, ran]

@[simp] theorem run_get_bind (f : σ → Program σ ε β) (s : σ) : (get >>= f).run s = (f s).run s := rfl

@[simp] theorem run_modify (g : σ → σ) (s : σ) :
    (modify g : Program σ ε PUnit).run s = (.ok ⟨⟩, g s) := rfl

@[simp] theorem run_modify_bind (g : σ → σ) (f : PUnit → Program σ ε β) (s : σ) :
    (modify g >>= f).run s = (f ⟨⟩).run (g s) := rfl

@[simp] theorem run_set (t s : σ) : (set t : Program σ ε PUnit).run s = (.ok ⟨⟩, t) := rfl

@[simp] theorem run_pure_bind (a : α) (f : α → Program σ ε β) (s : σ) :
    (pure a >>= f).run s = (f a).run s := rfl

@[simp] theorem run_throw (e : ε) (s : σ) :
    (throw e : Program σ ε α).run s = (.error e, s) := rfl

@[simp] theorem run_throw_bind (e : ε) (f : α → Program σ ε β) (s : σ) :
    ((throw e : Program σ ε α) >>= f).run s = (.error e, s) := rfl

theorem run_tryCatch (x : Program σ ε α) (handler : ε → Program σ ε α) (s : σ) :
    (tryCatch x handler).run s =
      match x.run s with
      | (.ok a, t) => (.ok a, t)
      | (.error e, t) => (handler e).run t := rfl

theorem run_tryCatch_of_ok {handler : ε → Program σ ε α} {a : α} (ran : x.run s = (.ok a, t)) :
    (tryCatch x handler).run s = (.ok a, t) := by
  rw [run_tryCatch, ran]

theorem run_tryCatch_of_error {handler : ε → Program σ ε α} {e : ε}
    (ran : x.run s = (.error e, t)) : (tryCatch x handler).run s = (handler e).run t := by
  rw [run_tryCatch, ran]

/-- What leaves the state alone at the end. -/
theorem state_bind (still : ∀ a t, ((f a).run t).2 = t) : ((x >>= f).run s).2 = (x.run s).2 := by
  rw [run_bind]
  rcases x.run s with ⟨_ | a, t⟩
  · rfl
  · exact still a t

@[simp] theorem run_bind_assoc (x : Program σ ε α) (f : α → Program σ ε β)
    (g : β → Program σ ε γ) (s : σ) :
    ((x >>= f) >>= g).run s = (x >>= fun a => f a >>= g).run s := by
  simp only [run_bind]
  rcases x.run s with ⟨_ | _, _⟩ <;> rfl

/-- Continuations that run alike. -/
theorem run_bind_congr {g : α → Program σ ε β} (same : ∀ a t, (f a).run t = (g a).run t) (s : σ) :
    (x >>= f).run s = (x >>= g).run s := by
  rw [run_bind, run_bind]
  split
  · exact same _ _
  · rfl

@[simp] theorem run_lift (x : Except ε α) (s : σ) : (lift x : Program σ ε α).run s = (x, s) := rfl

/-- A run that returns passes through a return of its first part. -/
theorem run_bind_eq_ok {b : β} :
    (x >>= f).run s = (.ok b, t) ↔
      ∃ a u, x.run s = (.ok a, u) ∧ (f a).run u = (.ok b, t) := by
  rw [run_bind]
  constructor
  · intro ran
    split at ran
    · rename_i a u first
      exact ⟨a, u, first, ran⟩
    · cases ran
  · rintro ⟨a, u, first, second⟩
    rw [first]
    exact second

theorem wp_of_ok {a : α} (ran : x.run s = (.ok a, t)) :
    x.wp post raised s ↔ post a t := by
  rw [wp, ran]

theorem wp_of_error {e : ε} (ran : x.run s = (.error e, t)) :
    x.wp post raised s ↔ raised e t := by
  rw [wp, ran]

@[simp] theorem wp_pure (a : α) : (pure a : Program σ ε α).wp post raised s ↔ post a s := Iff.rfl

@[simp] theorem wp_throw (e : ε) : (throw e : Program σ ε α).wp post raised s ↔ raised e s := Iff.rfl

@[simp] theorem wp_get {post : σ → σ → Prop} :
    (get : Program σ ε σ).wp post raised s ↔ post s s := Iff.rfl

@[simp] theorem wp_modify (g : σ → σ) {post : PUnit → σ → Prop} :
    (modify g : Program σ ε PUnit).wp post raised s ↔ post ⟨⟩ (g s) := Iff.rfl

@[simp] theorem wp_lift_ok (a : α) :
    (lift (.ok a) : Program σ ε α).wp post raised s ↔ post a s := Iff.rfl

@[simp] theorem wp_lift_error (e : ε) :
    (lift (.error e) : Program σ ε α).wp post raised s ↔ raised e s := Iff.rfl

@[simp] theorem wp_bind {post : β → σ → Prop} :
    (x >>= f).wp post raised s ↔ x.wp (fun a => (f a).wp post raised) raised s := by
  unfold wp
  rw [run_bind]
  rcases x.run s with ⟨_ | _, _⟩ <;> rfl

theorem wp.mono (holds : x.wp post raised s) (returns : ∀ a t, post a t → post' a t)
    (raises : ∀ e t, raised e t → raised' e t) : x.wp post' raised' s := by
  unfold wp at holds ⊢
  split at holds
  · exact returns _ _ holds
  · exact raises _ _ holds

/-- Two things that are known of one run. -/
theorem wp.and {post' : α → σ → Prop} {raised' : ε → σ → Prop} (first : x.wp post raised s)
    (second : x.wp post' raised' s) :
    x.wp (fun a t => post a t ∧ post' a t) (fun e t => raised e t ∧ raised' e t) s := by
  unfold Program.wp at first second ⊢
  generalize x.run s = result at first second
  obtain ⟨_ | _, _⟩ := result
  · exact ⟨first, second⟩
  · exact ⟨first, second⟩

/-- What raises nothing returns. -/
theorem wp.exists_ok (holds : x.wp post raised s) (never : ∀ e t, ¬ raised e t) :
    ∃ a t, x.run s = (.ok a, t) ∧ post a t := by
  unfold Program.wp at holds
  split at holds
  · rename_i a t ran
    exact ⟨a, t, ran, holds⟩
  · exact absurd holds (never _ _)

/-- A loop over a list: `inv` describes the state before the items that are left. -/
theorem wp_forM {body : α → Program σ ε PUnit} {inv : List α → σ → Prop}
    (step : ∀ a rest s, inv (a :: rest) s → (body a).wp (fun _ => inv rest) raised s)
    (items : List α) (start : inv items s) : (items.forM body).wp (fun _ => inv []) raised s := by
  induction items generalizing s with
  | nil => exact start
  | cons a rest ih =>
      change (body a >>= fun _ => rest.forM body).wp (fun _ => inv []) raised s
      rw [wp_bind]
      exact (step a rest s start).mono (fun _ _ holds => ih holds) (fun _ _ holds => holds)

/-- The program leaves the property true, whether it returns or raises. -/
def Preserves (inv : σ → Prop) (x : Program σ ε α) : Prop := ∀ s, inv s → inv (x.run s).2

variable {inv : σ → Prop}

theorem preserves_pure (a : α) : (pure a : Program σ ε α).Preserves inv := fun _ holds => holds

theorem preserves_throw (e : ε) : (throw e : Program σ ε α).Preserves inv := fun _ holds => holds

theorem preserves_lift (x : Except ε α) : (lift x : Program σ ε α).Preserves inv :=
  fun _ holds => holds

theorem preserves_modify {g : σ → σ} (keeps : ∀ s, inv s → inv (g s)) :
    (modify g : Program σ ε PUnit).Preserves inv := keeps

theorem Preserves.bind (first : x.Preserves inv) (second : ∀ a, (f a).Preserves inv) :
    (x >>= f).Preserves inv := by
  intro s holds
  have middle := first s holds
  rw [run_bind]
  rcases ran : x.run s with ⟨_ | a, t⟩
  · rw [ran] at middle
    exact middle
  · rw [ran] at middle
    exact second a t middle

/-- A program that reads the state first, with what holds in the state it reads. -/
theorem preserves_get_bind {f : σ → Program σ ε β} (second : ∀ s, inv s → inv ((f s).run s).2) :
    (get >>= f).Preserves inv := second

theorem preserves_getThen {f : σ → Program σ ε β} (second : ∀ s, (f s).Preserves inv) :
    (get >>= f).Preserves inv := fun s holds => second s s holds

theorem preserves_liftThen (x : Except ε α) (second : ∀ a, (f a).Preserves inv) :
    (lift x >>= f).Preserves inv := (preserves_lift x).bind second

theorem preserves_forM {body : α → Program σ ε PUnit} (each : ∀ a, (body a).Preserves inv)
    (items : List α) : (items.forM body).Preserves inv := by
  induction items with
  | nil => exact preserves_pure _
  | cons a rest ih => exact (each a).bind fun _ => ih

/-- What holds however the run ends holds in the state it leaves. -/
theorem wp.state {good : σ → Prop} (holds : x.wp (fun _ => good) (fun _ => good) s) :
    good (x.run s).2 := by
  unfold wp at holds
  split at holds
  · rename_i ran
    rw [ran]
    exact holds
  · rename_i ran
    rw [ran]
    exact holds

/-- A triple without a word on exceptions but the invariant. -/
theorem Preserves.of_wp (holds : ∀ s, inv s → x.wp (fun _ => inv) (fun _ => inv) s) :
    x.Preserves inv := fun s start => (holds s start).state

theorem Preserves.wp (keeps : x.Preserves inv) {s : σ} (holds : inv s) :
    x.wp (fun _ => inv) (fun _ => inv) s := by
  have ended := keeps s holds
  unfold Program.wp
  split
  · rename_i ran
    rw [ran] at ended
    exact ended
  · rename_i ran
    rw [ran] at ended
    exact ended

/-- What a first part preserves is all that is known where the rest starts. -/
theorem Preserves.wp_bind (keeps : x.Preserves inv) {s : σ} (holds : inv s)
    {post : β → σ → Prop} (raises : ∀ e t, inv t → raised e t)
    (rest : ∀ a t, inv t → (f a).wp post raised t) : (x >>= f).wp post raised s := by
  rw [Program.wp_bind]
  exact (keeps.wp holds).mono rest raises

end Program

@[simp] theorem Except.ok_bind {ε α β : Type} (a : α) (f : α → Except ε β) :
    (Except.ok a >>= f) = f a := rfl

@[simp] theorem Except.error_bind {ε α β : Type} (e : ε) (f : α → Except ε β) :
    (Except.error e >>= f) = .error e := rfl

/-- A computation without a state that returns passes through a return of its first part. -/
theorem Except.bind_eq_ok {ε α β : Type} {x : Except ε α} {f : α → Except ε β} {b : β} :
    (x >>= f) = .ok b ↔ ∃ a, x = .ok a ∧ f a = .ok b := by
  cases x with
  | error e =>
      constructor
      · intro returned
        cases returned
      · intro ⟨a, first, _⟩
        cases first
  | ok a =>
      constructor
      · intro returned
        exact ⟨a, rfl, returned⟩
      · intro ⟨a', first, rest⟩
        obtain rfl := Except.ok.inj first
        exact rest
