import Mathlib

/-! Runs of a machine whose calls either return a new state or do not return at all. -/

namespace Enlil

section

variable {σ ι ε : Type} (exec : σ → ι → Except ε σ) (allowed : σ → ι → Prop)

/-- The states reached from a start by returning calls, each allowed where it is made. -/
inductive Run (start : σ) : σ → Prop where
  | start : Run start start
  | call {s s' : σ} (op : ι) : Run start s → allowed s op → exec s op = .ok s' → Run start s'

variable {exec allowed}

/-- What holds at the start and survives every allowed call holds throughout the run. -/
theorem Run.invariant {Inv : σ → Prop} {start : σ} (holds : Inv start)
    (preserved : ∀ {s s' op}, Inv s → allowed s op → exec s op = .ok s' → Inv s')
    {s : σ} (run : Run exec allowed start s) : Inv s := by
  -- The run is followed call by call from its start.
  induction run with
  | start => exact holds
  | call op _ allow returned ih => exact preserved ih allow returned

/-- A run under a discipline is a run under any weaker one. -/
theorem Run.mono {weaker : σ → ι → Prop} (weak : ∀ s op, allowed s op → weaker s op)
    {start s : σ} (run : Run exec allowed start s) : Run exec weaker start s := by
  induction run with
  | start => exact .start
  | call op _ allow returned ih => exact .call op ih (weak _ _ allow) returned

/-- Runs follow each other. -/
theorem Run.trans {start middle s : σ} (first : Run exec allowed start middle) (second : Run exec allowed middle s) :
    Run exec allowed start s := by
  induction second with
  | start => exact first
  | call op _ allow returned ih => exact .call op ih allow returned

variable (exec allowed) in
/-- Makes a list of calls, as long as each is allowed and returns. -/
def runList [∀ s op, Decidable (allowed s op)] : σ → List ι → Option σ
  | s, [] => some s
  | s, op :: ops =>
    if allowed s op then
      match exec s op with
      | .ok s' => runList s' ops
      | .error _ => none
    else none

/-- A list of calls that are all allowed and return makes a run. -/
theorem runList_run [∀ s op, Decidable (allowed s op)] {ops : List ι} {start s : σ}
    (ran : runList exec allowed start ops = some s) : Run exec allowed start s := by
  induction ops generalizing start with
  | nil =>
    cases ran
    exact .start
  | cons op ops ih =>
    rw [runList] at ran
    split at ran
    · rename_i allow
      split at ran
      · rename_i s' returned
        exact (Run.start.call op allow returned).trans (ih ran)
      · cases ran
    · cases ran

/-- What a list of calls is seen to lead to is reached by a run. -/
theorem runList_any [∀ s op, Decidable (allowed s op)] {ops : List ι} {start : σ} {seen : σ → Bool}
    (found : (runList exec allowed start ops).any seen = true) :
    ∃ s, Run exec allowed start s ∧ seen s = true := by
  cases ran : runList exec allowed start ops with
  | none => simp [ran] at found
  | some s => exact ⟨s, runList_run ran, by simpa [ran] using found⟩

end

/-- A returning sequence of calls that may halt comes from its first part returning. -/
theorem bind_ok {ε α β : Type} {first : Except ε α} {rest : α → Except ε β} {result : β}
    (returned : (first >>= rest) = .ok result) :
    ∃ value, first = .ok value ∧ rest value = .ok result := by
  cases first with
  | error error => cases returned
  | ok value => exact ⟨value, rfl, returned⟩

end Enlil
