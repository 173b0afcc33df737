import Mathlib

/-! The values of a ring buffer in the order in which they were put in. -/

namespace Enlil

variable {α : Type} {cap start n : Nat} {buf : Nat → α}

/-- The values in a ring of a capacity from a position on, so many of them. -/
def window (cap : Nat) (buf : Nat → α) (start : Nat) : Nat → List α
  | 0 => []
  | n + 1 => buf start :: window cap buf ((start + 1) % cap) n

@[simp] theorem window_length (n : Nat) : ∀ {start : Nat}, (window cap buf start n).length = n := by
  induction n with
  | zero => exact fun {_} => rfl
  | succ n ih => exact fun {_} => by rw [window, List.length_cons, ih]

/-- A ring that agrees on the positions of a window has the same values there. -/
theorem window_congr {other : Nat → α} (n : Nat) : ∀ {start : Nat}, start < cap →
    (∀ i < n, other ((start + i) % cap) = buf ((start + i) % cap)) → window cap other start n = window cap buf start n := by
  induction n with
  | zero => exact fun {_} _ _ => rfl
  | succ n ih =>
    intro start low same
    have first := same 0 (Nat.succ_pos n)
    rw [Nat.add_zero, Nat.mod_eq_of_lt low] at first
    rw [window, window, first, ih (Nat.mod_lt _ (by omega)) fun i below => ?_]
    have next := same (i + 1) (by omega)
    rw [Nat.mod_add_mod]
    rwa [show start + 1 + i = start + (i + 1) by omega]

/-- A window that is one longer has the value of one more position. -/
theorem window_succ (n : Nat) : ∀ {start : Nat}, start < cap →
    window cap buf start (n + 1) = window cap buf start n ++ [buf ((start + n) % cap)] := by
  induction n with
  | zero =>
    intro start low
    simp [window, Nat.mod_eq_of_lt low]
  | succ n ih =>
    intro start low
    rw [window, ih (Nat.mod_lt _ (by omega)), window, Nat.mod_add_mod, List.cons_append,
      show start + 1 + n = start + (n + 1) by omega]

/-- A value put behind a window that leaves room for it comes last. -/
theorem window_push (low : start < cap) (room : n < cap) (value : α) :
    window cap (Function.update buf ((start + n) % cap) value) start (n + 1) = window cap buf start n ++ [value] := by
  -- The position behind the window is not one of the window.
  have apart : ∀ i < n, (start + i) % cap ≠ (start + n) % cap := by
    intro i below same
    have close : (n - i) % cap = 0 := by
      have shifted : (start + i + (n - i)) % cap = (start + i) % cap := by
        rw [show start + i + (n - i) = start + n by omega, same]
      have zero : (start + i + (n - i)) ≡ (start + i + 0) [MOD cap] := shifted
      exact Nat.ModEq.add_left_cancel' _ zero
    rw [Nat.mod_eq_of_lt (by omega)] at close
    omega
  rw [window_succ n low, Function.update_self,
    window_congr n low fun i below => Function.update_of_ne (apart i below) _ _]

end Enlil
