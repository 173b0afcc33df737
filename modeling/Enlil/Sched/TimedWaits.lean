import Mathlib

/-! The timed waits of `kernel/ksem.c`, `kernel/kmon.c` and `kernel/mreact.c`, as far as they depend on the time. -/

namespace Enlil.Sched

/-- Nanoseconds of a millisecond. -/
def nsPerMs : Nat := 1000000

/-- The milliseconds of a timeout in nanoseconds, a part of one counting as a whole one, in sixty-four bit arithmetic. -/
def timeoutToMs (timeoutNs : UInt64) : UInt64 :=
  if timeoutNs = 0 then 0 else (timeoutNs + 999999) / 1000000

def ksemTimeoutToMs (timeoutNs : UInt64) : UInt64 := timeoutToMs timeoutNs

def kmonTimeoutToMs (timeoutNs : UInt64) : UInt64 := timeoutToMs timeoutNs

def mreactTimeoutToMs (timeoutNs : UInt64) : UInt64 := timeoutToMs timeoutNs

/-- The timeouts for which a wait has no deadline. -/
def ksemWaitForeverNs : UInt64 := 0

def kmonWaitForeverNs : UInt64 := 0

def mreactWaitForeverNs : UInt64 := 0

/-- The deadline that a wait computes when it starts, zero for a wait without one. -/
def deadlineMs (toMs : UInt64 → UInt64) (foreverNs nowMs timeoutNs : UInt64) : UInt64 :=
  if timeoutNs ≠ foreverNs then nowMs + toMs timeoutNs else 0

/-- Why a wait ends before its deadline. -/
inductive WaitEnd where
  | granted
  | interrupted
  | gone
  deriving DecidableEq, Repr

/-- What a waiting task finds in one round: whether its wait is over, and the time. -/
structure WaitRound where
  ended : Option WaitEnd
  nowMs : UInt64

/-- How a wait comes out, with the time at which it gives up. -/
inductive WaitOutcome where
  | ended (reason : WaitEnd)
  | timedOut (nowMs : UInt64)
  | waiting
  deriving DecidableEq, Repr

/-- A task looks whether its wait is over, then at the time, and yields. -/
def waitLoop (foreverNs timeoutNs deadline : UInt64) : List WaitRound → WaitOutcome
  | [] => .waiting
  | round :: rounds =>
    match round.ended with
    | some reason => .ended reason
    | none =>
      if timeoutNs ≠ foreverNs ∧ deadline ≤ round.nowMs then .timedOut round.nowMs
      else waitLoop foreverNs timeoutNs deadline rounds

/-- The kinds of objects with timed waits. -/
inductive Waitable where
  | ksem
  | kmon
  | mreact
  deriving DecidableEq, Repr

def Waitable.foreverNs : Waitable → UInt64
  | .ksem => ksemWaitForeverNs
  | .kmon => kmonWaitForeverNs
  | .mreact => mreactWaitForeverNs

def Waitable.toMs : Waitable → UInt64 → UInt64
  | .ksem => ksemTimeoutToMs
  | .kmon => kmonTimeoutToMs
  | .mreact => mreactTimeoutToMs

/-- The deadline of a wait that starts at a time. -/
def Waitable.deadlineMs (w : Waitable) (startMs timeoutNs : UInt64) : UInt64 :=
  Sched.deadlineMs w.toMs w.foreverNs startMs timeoutNs

/-- The outcome of a wait that starts at a time. -/
def Waitable.wait (w : Waitable) (startMs timeoutNs : UInt64) (rounds : List WaitRound) : WaitOutcome :=
  waitLoop w.foreverNs timeoutNs (w.deadlineMs startMs timeoutNs) rounds

/-- The time before which a wait is not to give up. -/
def dueMs (startMs timeoutNs : UInt64) : Nat := startMs.toNat + timeoutNs.toNat ⌈/⌉ nsPerMs

/-- Neither the rounding of the timeout nor the sum with the start wraps. -/
def Fits (startMs timeoutNs : UInt64) : Prop := timeoutNs.toNat + 999999 < 2 ^ 64 ∧ dueMs startMs timeoutNs < 2 ^ 64

instance (startMs timeoutNs : UInt64) : Decidable (Fits startMs timeoutNs) := inferInstanceAs (Decidable (_ ∧ _))

theorem waitLoop_timedOut {foreverNs timeoutNs deadline nowMs : UInt64} {rounds : List WaitRound}
    (gaveUp : waitLoop foreverNs timeoutNs deadline rounds = .timedOut nowMs) : deadline ≤ nowMs := by
  induction rounds with
  | nil => cases gaveUp
  | cons round rounds ih =>
    rw [waitLoop] at gaveUp
    split at gaveUp
    · cases gaveUp
    · split at gaveUp
      · rename_i due
        cases gaveUp
        exact due.2
      · exact ih gaveUp

theorem timeoutToMs_toNat {timeoutNs : UInt64} (positive : timeoutNs ≠ 0) : (timeoutToMs timeoutNs).toNat =
    if timeoutNs.toNat + 999999 < 2 ^ 64 then timeoutNs.toNat ⌈/⌉ nsPerMs else 0 := by
  have small := timeoutNs.toNat_lt
  rw [timeoutToMs, if_neg positive, UInt64.toNat_div, UInt64.toNat_add, Nat.ceilDiv_eq_add_pred_div, nsPerMs]
  simp only [UInt64.reduceToNat]
  split <;> omega

theorem deadlineMs_eq (w : Waitable) {startMs timeoutNs : UInt64} (ends : timeoutNs ≠ w.foreverNs) :
    timeoutNs ≠ 0 ∧ w.deadlineMs startMs timeoutNs = startMs + timeoutToMs timeoutNs := by
  cases w <;> exact ⟨ends, if_pos ends⟩

theorem deadlineMs_due (w : Waitable) {startMs timeoutNs : UInt64} (ends : timeoutNs ≠ w.foreverNs) :
    dueMs startMs timeoutNs ≤ (w.deadlineMs startMs timeoutNs).toNat ↔ Fits startMs timeoutNs := by
  obtain ⟨positive, deadline⟩ := deadlineMs_eq w ends
  have start := startMs.toNat_lt
  have some : 0 < timeoutNs.toNat := Nat.pos_of_ne_zero fun zero => positive (UInt64.toNat_inj.mp zero)
  have rounded : 0 < timeoutNs.toNat ⌈/⌉ nsPerMs := by
    rw [Nat.ceilDiv_eq_add_pred_div, nsPerMs]
    omega
  rw [deadline, UInt64.toNat_add, timeoutToMs_toNat positive, Fits, dueMs]
  split <;> omega

/-- The deadline of a wait is not earlier than its timeout after its start, and no wait gives up earlier, exactly if neither the rounding of the timeout nor the sum with the start wraps. -/
theorem waits_not_early (w : Waitable) (startMs timeoutNs : UInt64) (ends : timeoutNs ≠ w.foreverNs) :
    (dueMs startMs timeoutNs ≤ (w.deadlineMs startMs timeoutNs).toNat ↔ Fits startMs timeoutNs) ∧
      ((∀ rounds nowMs, w.wait startMs timeoutNs rounds = .timedOut nowMs → dueMs startMs timeoutNs ≤ nowMs.toNat) ↔
        Fits startMs timeoutNs) := by
  have due : dueMs startMs timeoutNs ≤ (w.deadlineMs startMs timeoutNs).toNat ↔ Fits startMs timeoutNs :=
    deadlineMs_due w ends
  refine ⟨due, fun never => ?_, fun fits rounds nowMs gaveUp => ?_⟩
  · -- A task that looks at the time just at its deadline gives up.
    refine due.mp (never [⟨none, w.deadlineMs startMs timeoutNs⟩] _ ?_)
    exact if_pos ⟨ends, UInt64.le_refl _⟩
  · exact (due.mpr fits).trans (waitLoop_timedOut gaveUp)

/-- A wait of one and a half milliseconds that starts at the fifth one lasts until the seventh. -/
theorem waits_not_early_short : dueMs 5 1500000 = 7 ∧ 7 ≤ (Waitable.ksem.deadlineMs 5 1500000).toNat :=
  ⟨by decide, (waits_not_early .ksem 5 1500000 (by decide)).1.mpr (by decide)⟩

/-- The longest wait of each kind gives up at once. -/
theorem longest_wait_early : (∀ w : Waitable, w.wait 0 0xFFFFFFFFFFFFFFFF [⟨none, 0⟩] = .timedOut 0) ∧
    ¬ ∀ (w : Waitable) (startMs timeoutNs : UInt64), timeoutNs ≠ w.foreverNs →
      dueMs startMs timeoutNs ≤ (w.deadlineMs startMs timeoutNs).toNat := by
  refine ⟨fun w => by cases w <;> decide, fun all => ?_⟩
  exact absurd (all .ksem 0 0xFFFFFFFFFFFFFFFF (by decide)) (by decide)

end Enlil.Sched
