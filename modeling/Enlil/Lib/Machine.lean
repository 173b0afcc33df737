import Mathlib

/-! Programs over a state that may fail with an error or never come back, and how to reason about them. -/

namespace Enlil

/-- A program over a state: no outcome if it does not come back, else a value or an error and the state it leaves. -/
def Machine (σ ε α : Type) : Type := σ → Option (Except ε α × σ)

namespace Machine

section

variable {σ ε α β : Type}

/-- Sequencing stops at the first error and keeps the state reached there. -/
instance : Monad (Machine σ ε) where
  pure value := fun s => some (.ok value, s)
  bind first rest := fun s =>
    match first s with
    | none => none
    | some (.error error, s') => some (.error error, s')
    | some (.ok value, s') => rest value s'

/-- Stops with an error. -/
def fail (error : ε) : Machine σ ε α := fun s => some (.error error, s)

/-- Reads the state. -/
def get : Machine σ ε σ := fun s => some (.ok s, s)

/-- Changes the state. -/
def modify (change : σ → σ) : Machine σ ε Unit := fun s => some (.ok (), change s)

/-- Never comes back. -/
def stuck : Machine σ ε α := fun _ => none

/-- Turns every error of a program into one error. -/
def orFail (error : ε) (program : Machine σ ε α) : Machine σ ε α := fun s =>
  match program s with
  | some (.error _, s') => some (.error error, s')
  | outcome => outcome

/-- Runs a program and gives its outcome as a value. -/
def attempt (program : Machine σ ε α) : Machine σ ε (Except ε α) := fun s =>
  match program s with
  | some (outcome, s') => some (.ok outcome, s')
  | none => none

/-- Runs a program and then, whatever its outcome, a change of the state. -/
def andFinally (program : Machine σ ε α) (change : σ → σ) : Machine σ ε α := fun s =>
  match program s with
  | some (outcome, s') => some (outcome, change s')
  | none => none

/-- Runs a body for each element of a list. -/
def forEach : List β → (β → Machine σ ε Unit) → Machine σ ε Unit
  | [], _ => pure ()
  | x :: xs, body => do
    body x
    forEach xs body

/-- What a program guarantees from a state, with a verdict for programs that do not come back. -/
def wp (lost : Prop) (program : Machine σ ε α) (post : Except ε α → σ → Prop) (s : σ) : Prop :=
  match program s with
  | none => lost
  | some (outcome, s') => post outcome s'

variable {lost : Prop} {s : σ}

/-- A returned value is the outcome. -/
@[simp] theorem wp_pure {value : α} {post : Except ε α → σ → Prop} :
    wp lost (pure value : Machine σ ε α) post s ↔ post (.ok value) s := Iff.rfl

/-- The second program runs only after a value of the first. -/
@[simp] theorem wp_bind {first : Machine σ ε α} {rest : α → Machine σ ε β} {post : Except ε β → σ → Prop} :
    wp lost (first >>= rest) post s ↔
      wp lost first (fun outcome s' =>
        match outcome with
        | .ok value => wp lost (rest value) post s'
        | .error error => post (.error error) s') s := by
  simp only [wp, Bind.bind]
  cases first s with
  | none => rfl
  | some result =>
    obtain ⟨outcome, s'⟩ := result
    cases outcome <;> rfl

/-- An error is the outcome. -/
@[simp] theorem wp_fail {error : ε} {post : Except ε α → σ → Prop} :
    wp lost (fail error : Machine σ ε α) post s ↔ post (.error error) s := Iff.rfl

/-- Reading gives the state and leaves it. -/
@[simp] theorem wp_get {post : Except ε σ → σ → Prop} :
    wp lost (get : Machine σ ε σ) post s ↔ post (.ok s) s := Iff.rfl

/-- A change leaves the changed state. -/
@[simp] theorem wp_modify {change : σ → σ} {post : Except ε Unit → σ → Prop} :
    wp lost (modify change : Machine σ ε Unit) post s ↔ post (.ok ()) (change s) := Iff.rfl

/-- A program that never comes back gets the verdict. -/
@[simp] theorem wp_stuck {post : Except ε α → σ → Prop} :
    wp lost (stuck : Machine σ ε α) post s ↔ lost := Iff.rfl

/-- Errors arrive under the new name. -/
@[simp] theorem wp_orFail {error : ε} {program : Machine σ ε α} {post : Except ε α → σ → Prop} :
    wp lost (orFail error program) post s ↔
      wp lost program (fun outcome s' =>
        match outcome with
        | .ok value => post (.ok value) s'
        | .error _ => post (.error error) s') s := by
  simp only [wp, orFail]
  cases program s with
  | none => rfl
  | some result =>
    obtain ⟨outcome, s'⟩ := result
    cases outcome <;> rfl

/-- The outcome of an attempt is its value. -/
@[simp] theorem wp_attempt {program : Machine σ ε α} {post : Except ε (Except ε α) → σ → Prop} :
    wp lost (attempt program) post s ↔ wp lost program (fun outcome s' => post (.ok outcome) s') s := by
  simp only [wp, attempt]
  cases program s with
  | none => rfl
  | some result => rfl

/-- The final change is seen with every outcome. -/
@[simp] theorem wp_andFinally {program : Machine σ ε α} {change : σ → σ} {post : Except ε α → σ → Prop} :
    wp lost (andFinally program change) post s ↔
      wp lost program (fun outcome s' => post outcome (change s')) s := by
  simp only [wp, andFinally]
  cases program s with
  | none => rfl
  | some result => rfl

/-- A conditional guarantees what the branch taken guarantees. -/
@[simp] theorem wp_ite {c : Prop} [Decidable c] {yes no : Machine σ ε α} {post : Except ε α → σ → Prop} :
    wp lost (if c then yes else no) post s ↔
      (c → wp lost yes post s) ∧ (¬ c → wp lost no post s) := by
  split
  · rename_i holds
    exact ⟨fun h => ⟨fun _ => h, fun no => absurd holds no⟩, fun h => h.1 holds⟩
  · rename_i fails
    exact ⟨fun h => ⟨fun yes => absurd yes fails, fun _ => h⟩, fun h => h.2 fails⟩

/-- A guarantee may be weakened. -/
theorem wp_mono {program : Machine σ ε α} {post post' : Except ε α → σ → Prop}
    (holds : wp lost program post s) (weaker : ∀ outcome s', post outcome s' → post' outcome s') :
    wp lost program post' s := by
  unfold wp at *
  split
  · rename_i none
    simpa [none] using holds
  · rename_i outcome s' result
    simp only [result] at holds
    exact weaker outcome s' holds

/-- What holds of the elements still to come is kept by each round, and an error leaves what the failing round left. -/
theorem wp_forEach {xs : List β} {body : β → Machine σ ε Unit} (inv : List β → σ → Prop)
    {post : Except ε Unit → σ → Prop} (holds : inv xs s)
    (round : ∀ x rest s, inv (x :: rest) s → wp lost (body x) (fun outcome s' =>
      match outcome with
      | .ok _ => inv rest s'
      | .error error => post (.error error) s') s)
    (done : ∀ s, inv [] s → post (.ok ()) s) : wp lost (forEach xs body) post s := by
  -- The loop unrolls one element at a time, the invariant holding between rounds.
  induction xs generalizing s with
  | nil => exact done s holds
  | cons x rest ih =>
    rw [forEach, wp_bind]
    refine wp_mono (round x rest s holds) ?_
    intro outcome s' kept
    cases outcome with
    | ok value => exact ih kept
    | error error => exact kept

/-- A run that came back meets the guarantee of its program. -/
theorem wp_result {program : Machine σ ε α} {post : Except ε α → σ → Prop}
    (holds : wp True program post s) {outcome : Except ε α} {s' : σ}
    (result : program s = some (outcome, s')) : post outcome s' := by
  simpa [wp, result] using holds

/-- A guarantee that rejects lost programs shows that the program comes back. -/
theorem wp_total {program : Machine σ ε α} {post : Except ε α → σ → Prop}
    (holds : wp False program post s) : ∃ outcome s', program s = some (outcome, s') ∧ post outcome s' := by
  unfold wp at holds
  cases result : program s with
  | none => simp [result] at holds
  | some pair =>
    obtain ⟨outcome, s'⟩ := pair
    exact ⟨outcome, s', rfl, by simpa [result] using holds⟩

variable {I : σ → Prop}

end

end Machine

end Enlil
