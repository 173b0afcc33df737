import Mathlib

/-! The clock of `kernel/timer.c`, which turns counter values into nanoseconds with a factor that is worked out once. -/

namespace Enlil.Timer

/-- Ticks of the timer in a second. -/
def timerHz : UInt64 := 1000

/-- Bits of the factor behind its binary point. -/
def nsFracShift : UInt64 := 32

/-- What the initialisation keeps. -/
structure State where
  cntfrq : UInt64
  tickPeriod : UInt64
  nsPerTickFrac : UInt64

/-- The initialisation with a counter frequency, which never comes back where the firmware has set none. -/
def timerInit (cntfrq : UInt64) : Option State :=
  if cntfrq = 0 then none
  else some {
    cntfrq
    tickPeriod := (cntfrq + timerHz / 2) / timerHz
    nsPerTickFrac := (1000000000 <<< nsFracShift) / cntfrq }

/-- The nanoseconds of a counter value. -/
def timerNowNs (t : State) (ticks : UInt64) : UInt64 := (ticks * t.nsPerTickFrac) >>> nsFracShift

/-- The nanoseconds of a counter value, rounded down. -/
def exactNs (cntfrq ticks : Nat) : Nat := ticks * 10 ^ 9 / cntfrq

/-- The factor, rounded down to its bits. -/
def factor (cntfrq : Nat) : Nat := 10 ^ 9 * 2 ^ 32 / cntfrq

/-- The nanoseconds that the rounded factor stands for. -/
def roundedNs (cntfrq ticks : Nat) : Nat := ticks * factor cntfrq / 2 ^ 32

section

variable {cntfrq ticks : Nat}

theorem roundedNs_le (cntfrq ticks : Nat) : roundedNs cntfrq ticks ≤ exactNs cntfrq ticks := by
  -- Both roundings are taken together as one of a product.
  have product : ticks * factor cntfrq ≤ ticks * (10 ^ 9 * 2 ^ 32) / cntfrq := Nat.mul_div_le_mul_div_assoc _ _ _
  calc
    ticks * factor cntfrq / 2 ^ 32 ≤ ticks * (10 ^ 9 * 2 ^ 32) / cntfrq / 2 ^ 32 := Nat.div_le_div_right product
    _ = ticks * 10 ^ 9 / cntfrq := by
      rw [Nat.div_div_eq_div_mul, ← Nat.mul_assoc, Nat.mul_div_mul_right _ _ (by decide)]

theorem exactNs_le (proper : 0 < cntfrq) : exactNs cntfrq ticks ≤ roundedNs cntfrq ticks + (ticks + (2 ^ 32 - 1)) / 2 ^ 32 := by
  -- One more in the last bit of the factor would be too much.
  have above : 10 ^ 9 * 2 ^ 32 < cntfrq * (factor cntfrq + 1) := Nat.lt_mul_div_succ _ proper
  have scaled : exactNs cntfrq ticks * 2 ^ 32 * cntfrq ≤ ticks * (factor cntfrq + 1) * cntfrq := by
    calc
      exactNs cntfrq ticks * 2 ^ 32 * cntfrq = exactNs cntfrq ticks * cntfrq * 2 ^ 32 := by ring
      _ ≤ ticks * 10 ^ 9 * 2 ^ 32 := Nat.mul_le_mul_right _ (Nat.div_mul_le_self _ _)
      _ = ticks * (10 ^ 9 * 2 ^ 32) := by ring
      _ ≤ ticks * (cntfrq * (factor cntfrq + 1)) := Nat.mul_le_mul_left _ above.le
      _ = ticks * (factor cntfrq + 1) * cntfrq := by ring
  have bound : exactNs cntfrq ticks * 2 ^ 32 ≤ ticks * factor cntfrq + ticks := by
    have divided := Nat.le_of_mul_le_mul_right scaled proper
    rwa [Nat.mul_succ] at divided
  have split := Nat.div_add_mod (ticks * factor cntfrq) (2 ^ 32)
  have small := Nat.mod_lt (ticks * factor cntfrq) (show 0 < 2 ^ 32 by decide)
  unfold roundedNs
  omega

theorem roundedNs_mono {ticks' : Nat} (later : ticks ≤ ticks') : roundedNs cntfrq ticks ≤ roundedNs cntfrq ticks' :=
  Nat.div_le_div_right (Nat.mul_le_mul_right _ later)

end

section

variable {t : State} {cntfrq ticks : UInt64}

theorem timerInit_factor (init : timerInit cntfrq = some t) :
    0 < cntfrq.toNat ∧ t.nsPerTickFrac.toNat = factor cntfrq.toNat := by
  unfold timerInit at init
  split at init
  · cases init
  rename_i proper
  cases init
  refine ⟨Nat.pos_of_ne_zero fun zero => proper (UInt64.toNat_inj.mp zero), ?_⟩
  rw [UInt64.toNat_div]
  rfl

theorem timerNowNs_toNat (init : timerInit cntfrq = some t) :
    (timerNowNs t ticks).toNat = ticks.toNat * factor cntfrq.toNat % 2 ^ 64 / 2 ^ 32 := by
  rw [timerNowNs, UInt64.toNat_shiftRight, UInt64.toNat_mul, (timerInit_factor init).2]
  exact Nat.shiftRight_eq_div_pow _ 32

theorem timerNowNs_eq_iff (init : timerInit cntfrq = some t) :
    (timerNowNs t ticks).toNat = roundedNs cntfrq.toNat ticks.toNat ↔ ticks.toNat * factor cntfrq.toNat < 2 ^ 64 := by
  rw [timerNowNs_toNat init, roundedNs]
  generalize ticks.toNat * factor cntfrq.toNat = product
  -- A product that does not fit loses at least a whole word, which the shift does not hide.
  omega

/--
The clock is right at a counter value.

It gives the time up to what the rounded factor loses, and no counter value before gives a later time.
-/
structure Right (t : State) (ticks : UInt64) : Prop where
  rounded : (timerNowNs t ticks).toNat = roundedNs t.cntfrq.toNat ticks.toNat
  least : exactNs t.cntfrq.toNat ticks.toNat ≤ (timerNowNs t ticks).toNat + (ticks.toNat + (2 ^ 32 - 1)) / 2 ^ 32
  most : (timerNowNs t ticks).toNat ≤ exactNs t.cntfrq.toNat ticks.toNat
  monotone : ∀ earlier : UInt64, earlier ≤ ticks → timerNowNs t earlier ≤ timerNowNs t ticks

/-- The clock is right exactly as long as the product of the counter and the factor fits in sixty-four bits. -/
theorem right_iff (init : timerInit cntfrq = some t) :
    Right t ticks ↔ ticks.toNat * (10 ^ 9 * 2 ^ 32 / cntfrq.toNat) < 2 ^ 64 := by
  have same : t.cntfrq = cntfrq := by
    unfold timerInit at init
    split at init <;> cases init
    rfl
  constructor
  · intro right
    have rounded := right.rounded
    rw [same] at rounded
    exact (timerNowNs_eq_iff init).mp rounded
  · intro fits
    have here := (timerNowNs_eq_iff init).mpr fits
    refine ⟨?_, ?_, ?_, fun earlier before => ?_⟩
    · rw [same, here]
    · rw [same, here]
      exact exactNs_le (timerInit_factor init).1
    · rw [same, here]
      exact roundedNs_le _ _
    · -- Every earlier product fits as well.
      have less : earlier.toNat ≤ ticks.toNat := UInt64.le_iff_toNat_le.mp before
      have there := (timerNowNs_eq_iff init).mpr (lt_of_le_of_lt (Nat.mul_le_mul_right (factor cntfrq.toNat) less) fits)
      rw [UInt64.le_iff_toNat_le, here, there]
      exact roundedNs_mono less

/-- After one second at the usual frequency the clock is right. -/
theorem right_second : ∃ t, timerInit 62500000 = some t ∧ Right t 62500000 :=
  ⟨_, rfl, (@right_iff _ 62500000 _ rfl).mpr (by decide)⟩

/-- Less than five seconds after the start the clock of the usual frequency stands at zero again. -/
theorem wraps_early : ∃ t, timerInit 62500000 = some t ∧ exactNs 62500000 (2 ^ 28) = 4294967296 ∧
    timerNowNs t (2 ^ 28) = 0 ∧ timerNowNs t (2 ^ 28 - 1) = 4294967280 ∧ ¬ Right t (2 ^ 28) :=
  ⟨_, rfl, by decide, by decide, by decide, fun right => absurd right.rounded (by decide)⟩

end

end Enlil.Timer
