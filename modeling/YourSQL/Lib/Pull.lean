import YourSQL.Lib.Program

/-! # Items pulled one at a time

A source is asked for its next item and answers with one or with none; its place is passed on
from call to call. What filters a source is a source again. A sink takes each item before
the next one is asked for, and has a state of its own. All of this is told by the items that
the source yields, each with the state that is left behind it.
-/

namespace Program

variable {σ τ ε α : Type}

/-- A program on the first of two states. -/
def first (x : Program σ ε α) : Program (σ × τ) ε α :=
  ⟨fun s => ((x.run s.1).1, ((x.run s.1).2, s.2))⟩

/-- A program on the second of two states. -/
def second (x : Program τ ε α) : Program (σ × τ) ε α :=
  ⟨fun s => ((x.run s.2).1, (s.1, (x.run s.2).2))⟩

theorem run_first {x : Program σ ε α} {s s' : σ} {result : Except ε α}
    (ran : x.run s = (result, s')) (out : τ) : x.first.run (s, out) = (result, (s', out)) := by
  simp [first, ran]

theorem run_second {x : Program τ ε α} {out out' : τ} {result : Except ε α}
    (ran : x.run out = (result, out')) (s : σ) : x.second.run (s, out) = (result, (s, out')) := by
  simp [second, ran]

end Program

namespace Pull

abbrev Source (σ ε ι α : Type) := ι → Program σ ε (ι × Option α)

/-- How the pulling ends: in a place where nothing is left, or with an exception. -/
abbrev Ending (σ ε ι : Type) := Except ε ι × σ

variable {σ τ ε ι α β γ : Type}

/-! ## What is built on a source -/

/-- To the next item that passes the test. -/
def filter (test : α → Except ε Bool) (stuck : ε) (next : Source σ ε ι α) :
    (fuel : Nat) → Source σ ε ι α
  | 0, _ => throw stuck
  | fuel + 1, i => do
      match ← next i with
      | (i, none) => return (i, none)
      | (i, some a) =>
          if ← Program.lift (test a) then
            return (i, some a)
          else
            filter test stuck next fuel i

def map (f : α → Except ε β) (next : Source σ ε ι α) : Source σ ε ι β := fun i => do
  match ← next i with
  | (i, none) => return (i, none)
  | (i, some a) => return (i, some (← Program.lift (f a)))

/-- All items go into the sink. -/
def drain (sink : α → Program τ ε PUnit) (stuck : ε) (next : Source σ ε ι α) :
    (fuel : Nat) → ι → Program (σ × τ) ε ι
  | 0, _ => throw stuck
  | fuel + 1, i => do
      match ← (next i).first with
      | (i, none) => return i
      | (i, some a) =>
          (sink a).second
          drain sink stuck next fuel i

/-- The sink that makes one thing of each item, and keeps it. -/
def keep (make : α → Except ε β) (a : α) : Program (List β) ε PUnit := do
  let b ← Program.lift (make a)
  modify fun out => out ++ [b]

/-! ## What a source yields -/

/-- The items from a place on, each with the state behind it, and the end. -/
inductive Yields (next : Source σ ε ι α) : ι → σ → List (α × σ) → Ending σ ε ι → Prop
  | ended {i i' : ι} {s s' : σ} : (next i).run s = (.ok (i', none), s') →
      Yields next i s [] (.ok i', s')
  | raised {i : ι} {s s' : σ} {e : ε} : (next i).run s = (.error e, s') →
      Yields next i s [] (.error e, s')
  | item {i i' : ι} {s s' : σ} {a : α} {items : List (α × σ)} {ending : Ending σ ε ι} :
      (next i).run s = (.ok (i', some a), s') → Yields next i' s' items ending →
      Yields next i s ((a, s') :: items) ending

/-- What becomes of the items if each is turned into another one or dropped. The first one
    that raises an exception is the end. -/
def chosen (f : α → Except ε (Option β)) :
    List (α × σ) → Ending σ ε ι → List (β × σ) × Ending σ ε ι
  | [], ending => ([], ending)
  | (a, s) :: items, ending =>
      match f a with
      | .error e => ([], (.error e, s))
      | .ok none => chosen f items ending
      | .ok (some b) => ((b, s) :: (chosen f items ending).1, (chosen f items ending).2)

/-- The item itself, if it passes. -/
def tested (test : α → Except ε Bool) (a : α) : Except ε (Option α) :=
  (test a).map fun passed => if passed then some a else none

/-- One choice after another. -/
def andThen (f : α → Except ε (Option β)) (g : β → Except ε (Option γ)) (a : α) :
    Except ε (Option γ) := do
  match ← f a with
  | none => return none
  | some b => g b

variable {next : Source σ ε ι α} {f : α → Except ε (Option β)} {items : List (α × σ)}
  {ending : Ending σ ε ι} {i : ι} {s : σ} {a : α}

theorem chosen_of_error {e : ε} (raises : f a = .error e) :
    chosen f ((a, s) :: items) ending = ([], (.error e, s)) := by
  rw [chosen, raises]

theorem chosen_of_none (drops : f a = .ok none) :
    chosen f ((a, s) :: items) ending = chosen f items ending := by
  rw [chosen, drops]

theorem chosen_of_some {b : β} (takes : f a = .ok (some b)) :
    chosen f ((a, s) :: items) ending =
      ((b, s) :: (chosen f items ending).1, (chosen f items ending).2) := by
  rw [chosen, takes]

section

variable {g : β → Except ε (Option γ)}

theorem andThen_of_error {e : ε} (raises : f a = .error e) : andThen f g a = .error e := by
  rw [andThen, raises]
  rfl

theorem andThen_of_none (drops : f a = .ok none) : andThen f g a = .ok none := by
  rw [andThen, drops]
  rfl

theorem andThen_of_some {b : β} (takes : f a = .ok (some b)) : andThen f g a = g b := by
  rw [andThen, takes]
  rfl

end

theorem length_chosen_le (f : α → Except ε (Option β)) (items : List (α × σ))
    (ending : Ending σ ε ι) : (chosen f items ending).1.length ≤ items.length := by
  induction items with
  | nil => exact Nat.le_refl 0
  | cons item items ih =>
      obtain ⟨a, s⟩ := item
      cases choice : f a with
      | error e => simp [chosen_of_error choice]
      | ok taken =>
          cases taken with
          | none =>
              rw [chosen_of_none choice, List.length_cons]
              exact Nat.le_succ_of_le ih
          | some b =>
              rw [chosen_of_some choice]
              exact Nat.succ_le_succ ih

theorem chosen_chosen (f : α → Except ε (Option β)) (g : β → Except ε (Option γ))
    (items : List (α × σ)) (ending : Ending σ ε ι) :
    chosen g (chosen f items ending).1 (chosen f items ending).2 =
      chosen (andThen f g) items ending := by
  induction items with
  | nil => rfl
  | cons item items ih =>
      obtain ⟨a, s⟩ := item
      cases choice : f a with
      | error e =>
          rw [chosen_of_error choice, chosen_of_error (andThen_of_error choice)]
          rfl
      | ok taken =>
          cases taken with
          | none => rw [chosen_of_none choice, chosen_of_none (andThen_of_none choice), ih]
          | some b =>
              have both : andThen f g a = g b := andThen_of_some choice
              rw [chosen_of_some choice]
              cases second : g b with
              | error e => rw [chosen_of_error second, chosen_of_error (both.trans second)]
              | ok taken =>
                  cases taken with
                  | none => rw [chosen_of_none second, chosen_of_none (both.trans second), ih]
                  | some c => rw [chosen_of_some second, chosen_of_some (both.trans second), ih]

theorem exists_of_mem_chosen {b : β} (member : (b, s) ∈ (chosen f items ending).1) :
    ∃ a, f a = .ok (some b) := by
  induction items with
  | nil => cases member
  | cons item items ih =>
      obtain ⟨a, s'⟩ := item
      cases choice : f a with
      | error e =>
          rw [chosen_of_error choice] at member
          cases member
      | ok taken =>
          cases taken with
          | none =>
              rw [chosen_of_none choice] at member
              exact ih member
          | some b' =>
              rw [chosen_of_some choice] at member
              rcases List.mem_cons.mp member with here | later
              · obtain ⟨rfl, rfl⟩ := Prod.mk.inj here
                exact ⟨a, choice⟩
              · exact ih later

theorem tested_eq_some {test : α → Except ε Bool} {a b : α} :
    tested test a = .ok (some b) ↔ a = b ∧ test a = .ok true := by
  unfold tested
  cases passed : test a with
  | error e => simp [Except.map]
  | ok isMatch => cases isMatch <;> simp [Except.map]

/-- Where everything passes. -/
theorem chosen_all (items : List (α × σ)) (ending : Ending σ ε ι) :
    chosen (tested fun _ => .ok true) items ending = (items, ending) := by
  induction items with
  | nil => rfl
  | cons item items ih =>
      obtain ⟨a, s⟩ := item
      rw [chosen_of_some (show tested (fun _ => .ok true) a = .ok (some a) from rfl), ih]

/-- Where the choice is told by the item that another one leaves. -/
theorem chosen_map (g : β → γ) (f : α → Except ε (Option β)) (items : List (α × σ))
    (ending : Ending σ ε ι) :
    chosen (fun a => (f a).map (Option.map g)) items ending =
      ((chosen f items ending).1.map (Prod.map g id), (chosen f items ending).2) := by
  induction items with
  | nil => rfl
  | cons item items ih =>
      obtain ⟨a, s⟩ := item
      cases choice : f a with
      | error e => rw [chosen_of_error choice, chosen_of_error (by rw [choice]; rfl)]; rfl
      | ok taken =>
          cases taken with
          | none => rw [chosen_of_none choice, chosen_of_none (by rw [choice]; rfl), ih]
          | some b => rw [chosen_of_some choice, chosen_of_some (by rw [choice]; rfl), ih]; rfl

/-! ## Filters, maps and sinks by what their source yields -/

theorem Yields.congr {i' : ι} {s' : σ} (same : (next i).run s = (next i').run s')
    (yields : Yields next i' s' items ending) : Yields next i s items ending := by
  cases yields with
  | ended ran => exact .ended (same.trans ran)
  | raised ran => exact .raised (same.trans ran)
  | item ran rest => exact .item (same.trans ran) rest

section

variable {test : α → Except ε Bool} {stuck : ε} {fuel fuel' : Nat} {i' : ι} {s' : σ}

theorem run_filter_of_ended (ran : (next i).run s = (.ok (i', none), s')) :
    (filter test stuck next (fuel + 1) i).run s = (.ok (i', none), s') := by
  rw [filter, Program.run_bind_of_ok ran]
  rfl

theorem run_filter_of_raised {e : ε} (ran : (next i).run s = (.error e, s')) :
    (filter test stuck next (fuel + 1) i).run s = (.error e, s') := by
  rw [filter, Program.run_bind_of_error ran]

theorem run_filter_of_item (ran : (next i).run s = (.ok (i', some a), s')) :
    (filter test stuck next (fuel + 1) i).run s =
      match test a with
      | .error e => (.error e, s')
      | .ok true => (.ok (i', some a), s')
      | .ok false => (filter test stuck next fuel i').run s' := by
  rw [filter, Program.run_bind_of_ok ran]
  dsimp only
  cases passed : test a with
  | error e => exact Program.run_bind_of_error (Program.run_lift _ s')
  | ok isMatch =>
      rw [Program.run_bind_of_ok (Program.run_lift _ s')]
      cases isMatch <;> rfl

/-- What the fuel is does not matter if it is enough. -/
theorem Yields.run_filter_congr (yields : Yields next i s items ending)
    (enough : items.length < fuel) (enough' : items.length < fuel') :
    (Pull.filter test stuck next fuel' i).run s = (Pull.filter test stuck next fuel i).run s := by
  induction yields generalizing fuel fuel' with
  | ended ran =>
      obtain ⟨fuel, rfl⟩ := Nat.exists_eq_succ_of_ne_zero (Nat.ne_zero_of_lt enough)
      obtain ⟨fuel', rfl⟩ := Nat.exists_eq_succ_of_ne_zero (Nat.ne_zero_of_lt enough')
      rw [run_filter_of_ended ran, run_filter_of_ended ran]
  | raised ran =>
      obtain ⟨fuel, rfl⟩ := Nat.exists_eq_succ_of_ne_zero (Nat.ne_zero_of_lt enough)
      obtain ⟨fuel', rfl⟩ := Nat.exists_eq_succ_of_ne_zero (Nat.ne_zero_of_lt enough')
      rw [run_filter_of_raised ran, run_filter_of_raised ran]
  | item ran rest ih =>
      obtain ⟨fuel, rfl⟩ := Nat.exists_eq_succ_of_ne_zero (Nat.ne_zero_of_lt enough)
      obtain ⟨fuel', rfl⟩ := Nat.exists_eq_succ_of_ne_zero (Nat.ne_zero_of_lt enough')
      rw [run_filter_of_item ran, run_filter_of_item ran,
        ih (Nat.lt_of_succ_lt_succ enough) (Nat.lt_of_succ_lt_succ enough')]

/-- A filter yields the items that pass. -/
theorem Yields.filter (yields : Yields next i s items ending) (enough : items.length < fuel) :
    Yields (Pull.filter test stuck next fuel) i s (chosen (tested test) items ending).1
      (chosen (tested test) items ending).2 := by
  induction yields with
  | ended ran =>
      obtain ⟨fuel, rfl⟩ := Nat.exists_eq_succ_of_ne_zero (Nat.ne_zero_of_lt enough)
      exact .ended (run_filter_of_ended ran)
  | raised ran =>
      obtain ⟨fuel, rfl⟩ := Nat.exists_eq_succ_of_ne_zero (Nat.ne_zero_of_lt enough)
      exact .raised (run_filter_of_raised ran)
  | @item i i' s s' a items ending ran rest ih =>
      have behind : items.length < fuel := Nat.lt_of_succ_lt enough
      obtain ⟨fuel, rfl⟩ := Nat.exists_eq_succ_of_ne_zero (Nat.ne_zero_of_lt enough)
      have here := @run_filter_of_item _ _ _ _ next i s a test stuck fuel i' s' ran
      cases passed : test a with
      | error e =>
          rw [passed] at here
          rw [chosen_of_error (by rw [tested, passed]; rfl)]
          exact .raised here
      | ok isMatch =>
          rw [passed] at here
          cases isMatch with
          | true =>
              rw [chosen_of_some (by rw [tested, passed]; rfl)]
              exact .item here (ih behind)
          | false =>
              rw [chosen_of_none (by rw [tested, passed]; rfl)]
              -- the loop goes on with less fuel than the next call will have
              have more := @Yields.run_filter_congr _ _ _ _ _ _ _ _ _ test stuck _ _ rest behind
                (Nat.lt_of_succ_lt_succ enough)
              exact (ih behind).congr (here.trans more)

end

theorem Yields.map {f : α → Except ε β} (yields : Yields next i s items ending) :
    Yields (Pull.map f next) i s (chosen (fun a => (f a).map some) items ending).1
      (chosen (fun a => (f a).map some) items ending).2 := by
  induction yields with
  | ended ran =>
      refine .ended ?_
      rw [Pull.map, Program.run_bind_of_ok ran]
      rfl
  | raised ran =>
      refine .raised ?_
      rw [Pull.map, Program.run_bind_of_error ran]
  | @item i i' s s' a items ending ran rest ih =>
      cases made : f a with
      | error e =>
          rw [chosen_of_error (by rw [made]; rfl)]
          refine .raised ?_
          rw [Pull.map, Program.run_bind_of_ok ran]
          dsimp only
          rw [made]
          rfl
      | ok b =>
          rw [chosen_of_some (by rw [made]; rfl)]
          refine .item ?_ ih
          rw [Pull.map, Program.run_bind_of_ok ran]
          dsimp only
          rw [made]
          rfl

theorem run_keep (make : α → Except ε β) (a : α) (out : List β) :
    (keep make a).run out =
      match make a with
      | .error e => (.error e, out)
      | .ok b => (.ok ⟨⟩, out ++ [b]) := by
  unfold keep
  rw [Program.run_bind, Program.run_lift]
  cases make a <;> rfl

theorem Yields.run_drain_keep (make : α → Except ε β) (stuck : ε)
    (yields : Yields next i s items ending)
    {fuel : Nat} (enough : items.length < fuel) (out : List β) :
    let result := chosen (fun a => (make a).map some) items ending
    (drain (keep make) stuck next fuel i).run (s, out) =
      (result.2.1, (result.2.2, out ++ result.1.map Prod.fst)) := by
  induction yields generalizing fuel out with
  | ended ran =>
      obtain ⟨fuel, rfl⟩ := Nat.exists_eq_succ_of_ne_zero (Nat.ne_zero_of_lt enough)
      rw [drain, Program.run_bind_of_ok (Program.run_first ran out)]
      simp [chosen]
  | raised ran =>
      obtain ⟨fuel, rfl⟩ := Nat.exists_eq_succ_of_ne_zero (Nat.ne_zero_of_lt enough)
      rw [drain, Program.run_bind_of_error (Program.run_first ran out)]
      simp [chosen]
  | @item i i' s s' a items ending ran rest ih =>
      obtain ⟨fuel, rfl⟩ := Nat.exists_eq_succ_of_ne_zero (Nat.ne_zero_of_lt enough)
      have kept := run_keep make a out
      rw [drain, Program.run_bind_of_ok (Program.run_first ran out)]
      dsimp only
      cases made : make a with
      | error e =>
          rw [made] at kept
          rw [Program.run_bind_of_error (Program.run_second kept s'),
            chosen_of_error (by rw [made]; rfl)]
          simp
      | ok b =>
          rw [made] at kept
          rw [Program.run_bind_of_ok (Program.run_second kept s'),
            chosen_of_some (by rw [made]; rfl), ih (Nat.lt_of_succ_lt_succ enough)]
          simp

end Pull
