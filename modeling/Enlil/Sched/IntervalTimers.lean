import Mathlib

/-! The interval timers of `kernel/sched.c`, and the calls of `kernel/syscall.c` that arm them and look at them. -/

namespace Enlil.Itimer

/-- A time of a call, in seconds and microseconds. -/
structure LinuxTimeval where
  tvSec : Int64
  tvUsec : Int64

/-- What a timer is set to: its first expiry and its period. -/
structure LinuxItimerval where
  itInterval : LinuxTimeval
  itValue : LinuxTimeval

/-- The timer of a process: its next expiry, zero if it is not armed, and its period, zero if it runs once. -/
structure ProcTimer where
  inUse : Bool
  tgid : Nat
  itimerExpiresMs : UInt64
  itimerIntervalMs : UInt64

/-- Processes that have a timer. -/
def procTimerMax : Nat := 96

/-- The time in milliseconds, the timers, and the groups that were sent an alarm, latest first. -/
structure Timers where
  jiffies : UInt64
  procs : Nat → ProcTimer
  alarms : List Nat

inductive ItimerErrno where
  | eperm
  | efault
  | einval
  deriving DecidableEq, Repr

/-- The milliseconds of a time, a part of one being left out, in the machine's sixty-four bits. -/
def timevalMs (time : LinuxTimeval) : UInt64 := (time.tvSec * 1000 + time.tvUsec / 1000).toUInt64

/-- The time of so many milliseconds. -/
def timevalOfMs (ms : UInt64) : LinuxTimeval := ⟨(ms / 1000).toInt64, (ms % 1000 * 1000).toInt64⟩

/-- Arms the timer of a process, or disarms it. -/
def schedProcSetItimer (s : Timers) (p : Nat) (valueMs intervalMs : UInt64) : Timers :=
  let proc := s.procs p
  let proc :=
    if valueMs = 0 then { proc with itimerExpiresMs := 0, itimerIntervalMs := 0 }
    else { proc with itimerExpiresMs := s.jiffies + valueMs, itimerIntervalMs := intervalMs }
  { s with procs := Function.update s.procs p proc }

/-- What is left until the timer of a process expires, and its period. -/
def schedProcGetItimer (s : Timers) (p : Nat) : UInt64 × UInt64 :=
  let proc := s.procs p
  (if proc.itimerExpiresMs = 0 ∨ proc.itimerExpiresMs ≤ s.jiffies then 0 else proc.itimerExpiresMs - s.jiffies,
    proc.itimerIntervalMs)

/-- Whether the microseconds of a time are in their range, which is all that is checked of it. -/
def usecValid (time : LinuxTimeval) : Bool := !(time.tvUsec < 0 || time.tvUsec ≥ 1000000)

/-- Whose call it is: the slot of its process, and whether it is a user task. -/
structure TimerCaller where
  isUser : Bool
  proc : Nat

/-- Arms the timer of the caller, if it gives a new value, and returns the old one; each place in the caller's memory may be missing. -/
def sysSetitimer (s : Timers) (caller : TimerCaller) (which : Int32) (new : Option (Option LinuxItimerval)) (oldMapped : Bool) :
    Timers × Except ItimerErrno LinuxItimerval :=
  if which ≠ 0 then (s, .error .einval)
  else if !caller.isUser then (s, .error .eperm)
  else
    let (oldValueMs, oldIntervalMs) := schedProcGetItimer s caller.proc
    let old : LinuxItimerval := ⟨timevalOfMs oldIntervalMs, timevalOfMs oldValueMs⟩
    if !oldMapped then (s, .error .efault)
    else
      match new with
      | none => (s, .ok old)
      | some none => (s, .error .efault)
      | some (some new) =>
        if !usecValid new.itValue || !usecValid new.itInterval then (s, .error .einval)
        else (schedProcSetItimer s caller.proc (timevalMs new.itValue) (timevalMs new.itInterval), .ok old)

/-- The time until the timer of the caller expires, and its period. -/
def sysGetitimer (s : Timers) (caller : TimerCaller) (which : Int32) (mapped : Bool) : Except ItimerErrno LinuxItimerval :=
  if which ≠ 0 then .error .einval
  else if !mapped then .error .efault
  else if !caller.isUser then .error .eperm
  else
    let (valueMs, intervalMs) := schedProcGetItimer s caller.proc
    .ok ⟨timevalOfMs intervalMs, timevalOfMs valueMs⟩

/-- Whether the timer of a process has expired at a time. -/
def expired (jiffies : UInt64) (proc : ProcTimer) : Bool :=
  proc.inUse && proc.itimerExpiresMs ≠ 0 && !(jiffies < proc.itimerExpiresMs)

/-- The timer of a process at a tick: one that has expired is armed again for its period, or disarmed. -/
def itimerTick (jiffies : UInt64) (proc : ProcTimer) : ProcTimer :=
  if expired jiffies proc then
    { proc with itimerExpiresMs := if proc.itimerIntervalMs ≠ 0 then jiffies + proc.itimerIntervalMs else 0 }
  else proc

/-- A tick of the clock, which looks at the timers of all processes in turn. -/
def schedTick (s : Timers) : Timers :=
  let jiffies := s.jiffies + 1
  { jiffies
    procs := fun p => if p < procTimerMax then itimerTick jiffies (s.procs p) else s.procs p
    alarms := ((List.range procTimerMax).filterMap fun p =>
      if expired jiffies (s.procs p) then some (s.procs p).tgid else none).reverse ++ s.alarms }

/-- The state after so many ticks. -/
def afterTicks (s : Timers) (n : Nat) : Timers := schedTick^[n] s

/-- Whether the tick of a number sends the alarm of a process, the first tick having number one. -/
def rings (s : Timers) (p n : Nat) : Bool := expired (s.jiffies + UInt64.ofNat n) ((afterTicks s (n - 1)).procs p)

/-- The microseconds of a time. -/
def LinuxTimeval.us (time : LinuxTimeval) : Int := time.tvSec.toInt * 1000000 + time.tvUsec.toInt

/-- A time that a caller may give: it is not negative, and its microseconds are less than a second. -/
structure LinuxTimeval.Valid (time : LinuxTimeval) : Prop where
  sec : 0 ≤ time.tvSec.toInt
  usec : 0 ≤ time.tvUsec.toInt ∧ time.tvUsec.toInt < 1000000

/-- The milliseconds of a time, a part of one being left out. -/
def LinuxTimeval.wholeMs (time : LinuxTimeval) : Nat := time.us.toNat / 1000

/--
A timer does what it was set to do.

Its first alarm comes with the first tick at which the requested time is over; after that it is armed again if it has a period; and right after the call it is not seen as unset.
-/
structure DoesAsSet (s : Timers) (caller : TimerCaller) (now : UInt64) (new : LinuxItimerval) : Prop where
  first : ∃ n, 0 < n ∧ rings s caller.proc n = true ∧ (∀ m, 0 < m → m < n → rings s caller.proc m = false) ∧
    1000 * (now.toNat : Int) + new.itValue.us ≤ 1000 * ((now + UInt64.ofNat n).toNat : Int) ∧
    (∀ m, 0 < m → m < n → 1000 * ((now + UInt64.ofNat m).toNat : Int) < 1000 * (now.toNat : Int) + new.itValue.us) ∧
    (new.itInterval.us ≠ 0 → ((afterTicks s n).procs caller.proc).itimerExpiresMs ≠ 0)
  seen : ∃ time, sysGetitimer s caller 0 true = .ok time ∧ (time.itValue.us ≠ 0 ∨ time.itInterval.us ≠ 0)

section

variable {s : Timers} {p : Nat} {time : LinuxTimeval}

theorem timevalMs_toNat (valid : time.Valid) : (timevalMs time).toNat = time.wholeMs % 2 ^ 64 := by
  obtain ⟨sec, usec⟩ := valid
  have whole : (time.wholeMs : Int) = time.tvSec.toInt * 1000 + time.tvUsec.toInt / 1000 := by
    unfold LinuxTimeval.wholeMs LinuxTimeval.us
    omega
  have seconds : (time.tvSec.toUInt64.toNat : Int) = time.tvSec.toInt := by
    rw [Int64.toNat_toUInt64_of_le (Int64.le_iff_toInt_le.mpr sec), Int64.toNatClampNeg]
    exact Int.toNat_of_nonneg sec
  have quotient : ((time.tvUsec / 1000).toUInt64.toNat : Int) = time.tvUsec.toInt / 1000 := by
    have divided : (time.tvUsec / 1000).toInt = time.tvUsec.toInt / 1000 := by
      rw [Int64.toInt_div_of_ne_right _ _ (by decide), Int.tdiv_eq_ediv_of_nonneg usec.1]
      rfl
    have proper : 0 ≤ (time.tvUsec / 1000).toInt := by
      rw [divided]
      exact Int.ediv_nonneg usec.1 (by decide)
    rw [Int64.toNat_toUInt64_of_le (Int64.le_iff_toInt_le.mpr proper), Int64.toNatClampNeg, Int.toNat_of_nonneg proper, divided]
  have thousand : (1000 : Int64).toUInt64.toNat = 1000 := by decide
  rw [timevalMs, Int64.toUInt64_add, Int64.toUInt64_mul, UInt64.toNat_add, UInt64.toNat_mul, thousand]
  omega

theorem us_eq (valid : time.Valid) : time.us = 1000 * time.wholeMs + time.tvUsec.toInt % 1000 := by
  obtain ⟨sec, usec⟩ := valid
  unfold LinuxTimeval.wholeMs LinuxTimeval.us
  omega

theorem afterTicks_succ (s : Timers) (n : Nat) : afterTicks s (n + 1) = schedTick (afterTicks s n) :=
  Function.iterate_succ_apply' schedTick n s

theorem afterTicks_jiffies (s : Timers) (n : Nat) : (afterTicks s n).jiffies = s.jiffies + UInt64.ofNat n := by
  induction n with
  | zero => exact (UInt64.add_zero _).symm
  | succ n ih => rw [afterTicks_succ, schedTick, ih, UInt64.ofNat_add, UInt64.add_assoc]; rfl

theorem schedTick_procs (inside : p < procTimerMax) : (schedTick s).procs p = itimerTick (s.jiffies + 1) (s.procs p) := by
  rw [schedTick]
  dsimp only
  rw [if_pos inside]

theorem afterTicks_procs (inside : p < procTimerMax) {n : Nat}
    (quiet : ∀ m, 0 < m → m ≤ n → expired (s.jiffies + UInt64.ofNat m) (s.procs p) = false) :
    (afterTicks s n).procs p = s.procs p := by
  induction n with
  | zero => rfl
  | succ n ih =>
    have before := ih fun m some le => quiet m some (Nat.le_succ_of_le le)
    have now := quiet (n + 1) (Nat.succ_pos n) le_rfl
    rw [afterTicks_succ, schedTick_procs inside, before, afterTicks_jiffies, itimerTick, UInt64.add_assoc]
    rw [UInt64.ofNat_add] at now
    exact if_neg (by rw [show (1 : UInt64) = UInt64.ofNat 1 from rfl, now]; decide)

theorem rings_eq (inside : p < procTimerMax) {n : Nat}
    (quiet : ∀ m, 0 < m → m < n → expired (s.jiffies + UInt64.ofNat m) (s.procs p) = false) :
    rings s p n = expired (s.jiffies + UInt64.ofNat n) (s.procs p) := by
  rw [rings, afterTicks_procs inside fun m some le => quiet m some (by omega)]

theorem quiet_of_rings (inside : p < procTimerMax) {n : Nat} (silent : ∀ m, 0 < m → m < n → rings s p m = false) :
    ∀ m, 0 < m → m < n → expired (s.jiffies + UInt64.ofNat m) (s.procs p) = false := by
  intro m
  induction m using Nat.strong_induction_on with
  | _ m ih =>
    intro some less
    rw [← rings_eq inside fun m' some' less' => ih m' less' some' (less'.trans less)]
    exact silent m some less

end

section

variable {s : Timers} {p n : Nat}

theorem afterTicks_rearmed (inside : p < procTimerMax) (some : 0 < n)
    (quiet : ∀ m, 0 < m → m < n → expired (s.jiffies + UInt64.ofNat m) (s.procs p) = false)
    (due : expired (s.jiffies + UInt64.ofNat n) (s.procs p) = true) :
    ((afterTicks s n).procs p).itimerExpiresMs =
      if (s.procs p).itimerIntervalMs ≠ 0 then s.jiffies + UInt64.ofNat n + (s.procs p).itimerIntervalMs else 0 := by
  obtain ⟨m, rfl⟩ : ∃ m, n = m + 1 := ⟨n - 1, by omega⟩
  have before := afterTicks_procs inside fun k some le => quiet k some (Nat.lt_succ_of_le le)
  have tick : s.jiffies + UInt64.ofNat (m + 1) = s.jiffies + UInt64.ofNat m + 1 := by
    rw [UInt64.ofNat_add, ← UInt64.add_assoc]
    rfl
  rw [tick] at due ⊢
  rw [afterTicks_succ, schedTick_procs inside, before, afterTicks_jiffies, itimerTick, if_pos due]

theorem ticks_toNat {jiffies : UInt64} (fits : jiffies.toNat + n < 2 ^ 64) :
    (jiffies + UInt64.ofNat n).toNat = jiffies.toNat + n := by
  rw [UInt64.toNat_add, UInt64.toNat_ofNat', Nat.mod_eq_of_lt (show n < 2 ^ 64 by omega), Nat.mod_eq_of_lt fits]

theorem expired_eq_false_iff {jiffies : UInt64} {proc : ProcTimer} (used : proc.inUse = true) (armed : proc.itimerExpiresMs ≠ 0) :
    expired jiffies proc = false ↔ jiffies.toNat < proc.itimerExpiresMs.toNat := by
  simp [expired, used, armed, UInt64.lt_iff_toNat_lt]

theorem quiet_before (proc : ProcTimer) {jiffies : UInt64} {valueMs : Nat} (used : proc.inUse = true) (some : 0 < valueMs)
    (fits : jiffies.toNat + valueMs < 2 ^ 64) (set : proc.itimerExpiresMs.toNat = jiffies.toNat + valueMs) :
    (∀ m, m < valueMs → expired (jiffies + UInt64.ofNat m) proc = false) ∧
      expired (jiffies + UInt64.ofNat valueMs) proc = true := by
  have armed : proc.itimerExpiresMs ≠ 0 := by
    intro zero
    rw [zero, UInt64.toNat_zero] at set
    omega
  constructor
  · intro m less
    rw [expired_eq_false_iff used armed, set, ticks_toNat (by omega)]
    omega
  · rw [← Bool.not_eq_false, expired_eq_false_iff used armed, set, ticks_toNat fits]
    omega

end

section

variable {s : Timers} {caller : TimerCaller} {new : LinuxItimerval}

theorem usecValid_of_valid {time : LinuxTimeval} (valid : time.Valid) : usecValid time = true := by
  have low : ¬ time.tvUsec < 0 := Int64.not_lt.mpr (Int64.le_iff_toInt_le.mpr valid.usec.1)
  have high : ¬ time.tvUsec ≥ 1000000 := by
    rw [ge_iff_le, Int64.le_iff_toInt_le, not_le]
    exact valid.usec.2
  simp only [usecValid, low, high, decide_false, Bool.or_self, Bool.not_false]

theorem sysSetitimer_eq (user : caller.isUser = true) (value : new.itValue.Valid) (interval : new.itInterval.Valid) :
    (sysSetitimer s caller 0 (some (some new)) true).1 =
      schedProcSetItimer s caller.proc (timevalMs new.itValue) (timevalMs new.itInterval) := by
  simp only [sysSetitimer, user, usecValid_of_valid value, usecValid_of_valid interval]
  rfl

theorem timevalOfMs_us (ms : UInt64) : (timevalOfMs ms).us = 1000 * ms.toNat := by
  have small : ∀ word : UInt64, word.toNat < 2 ^ 63 → word.toInt64.toInt = word.toNat := by
    intro word less
    rw [← Int64.toInt_toBitVec, UInt64.toBitVec_toInt64, BitVec.toInt_eq_toNat_of_lt]
    · rfl
    · change 2 * word.toNat < 2 ^ 64
      omega
  have seconds := small (ms / 1000)
  have rest := small (ms % 1000 * 1000)
  have bound := ms.toNat_lt
  have thousand : (1000 : UInt64).toNat = 1000 := rfl
  rw [UInt64.toNat_div, thousand] at seconds
  rw [UInt64.toNat_mul, UInt64.toNat_mod, thousand] at rest
  have part : ms.toNat % 1000 * 1000 % 2 ^ 64 = ms.toNat % 1000 * 1000 := by omega
  rw [part] at rest
  rw [LinuxTimeval.us, timevalOfMs, seconds (by omega), rest (by omega)]
  omega

theorem setItimer_procs (s : Timers) (p : Nat) {valueMs intervalMs : UInt64} (some : valueMs ≠ 0) :
    (schedProcSetItimer s p valueMs intervalMs).procs p =
      { s.procs p with itimerExpiresMs := s.jiffies + valueMs, itimerIntervalMs := intervalMs } := by
  simp only [schedProcSetItimer, Function.update_self, if_neg some]

theorem setItimer_zero (s : Timers) (p : Nat) (intervalMs : UInt64) :
    ((schedProcSetItimer s p 0 intervalMs).procs p).itimerExpiresMs = 0 := by
  simp only [schedProcSetItimer, Function.update_self, if_true]

/--
A timer does what it was set to do exactly if nothing of its times is lost.

Its first time is a whole number of milliseconds and ends before the clock does, and its period, if it has one, comes to neither zero milliseconds nor a wrap of the clock to zero.
-/
theorem setitimer_iff (user : caller.isUser = true) (inside : caller.proc < procTimerMax)
    (used : (s.procs caller.proc).inUse = true) (value : new.itValue.Valid) (interval : new.itInterval.Valid)
    (nonzero : new.itValue.us ≠ 0) :
    DoesAsSet (sysSetitimer s caller 0 (some (some new)) true).1 caller s.jiffies new ↔
      new.itValue.tvUsec.toInt % 1000 = 0 ∧ s.jiffies.toNat + new.itValue.wholeMs < 2 ^ 64 ∧
      (new.itInterval.us ≠ 0 → new.itInterval.wholeMs % 2 ^ 64 ≠ 0 ∧
        (s.jiffies.toNat + new.itValue.wholeMs + new.itInterval.wholeMs) % 2 ^ 64 ≠ 0) := by
  rw [sysSetitimer_eq user value interval]
  have asked := us_eq value
  have valueMs := timevalMs_toNat value
  have intervalMs := timevalMs_toNat interval
  generalize timevalMs new.itValue = valueWord at *
  generalize timevalMs new.itInterval = intervalWord at *
  -- As long as neither the time nor its end wraps around, the first alarm is known.
  have known : ∀ fits : s.jiffies.toNat + new.itValue.wholeMs < 2 ^ 64, ∀ some : 0 < new.itValue.wholeMs,
      (schedProcSetItimer s caller.proc valueWord intervalWord).procs caller.proc =
        { s.procs caller.proc with itimerExpiresMs := s.jiffies + valueWord, itimerIntervalMs := intervalWord } ∧
      (s.jiffies + valueWord).toNat = s.jiffies.toNat + new.itValue.wholeMs := by
    intro fits some
    have word : valueWord.toNat = new.itValue.wholeMs := by omega
    refine ⟨setItimer_procs s caller.proc fun zero => ?_, ?_⟩
    · rw [zero, UInt64.toNat_zero] at word
      omega
    · rw [UInt64.toNat_add, word]
      omega
  have rearmed : ∀ fits : s.jiffies.toNat + new.itValue.wholeMs < 2 ^ 64, ∀ some : 0 < new.itValue.wholeMs,
      new.itInterval.us ≠ 0 →
      (((afterTicks (schedProcSetItimer s caller.proc valueWord intervalWord) new.itValue.wholeMs).procs
        caller.proc).itimerExpiresMs ≠ 0 ↔ new.itInterval.wholeMs % 2 ^ 64 ≠ 0 ∧
        (s.jiffies.toNat + new.itValue.wholeMs + new.itInterval.wholeMs) % 2 ^ 64 ≠ 0) := by
    intro fits some periodic
    obtain ⟨procs, sum⟩ := known fits some
    have quiet := quiet_before ((schedProcSetItimer s caller.proc valueWord intervalWord).procs caller.proc)
      (by rw [procs]; exact used) some fits (by rw [procs]; exact sum)
    rw [afterTicks_rearmed inside some (fun m _ less => quiet.1 m less) quiet.2, procs]
    have now : (s.jiffies + UInt64.ofNat new.itValue.wholeMs).toNat = s.jiffies.toNat + new.itValue.wholeMs := ticks_toNat fits
    change (if intervalWord ≠ 0 then s.jiffies + UInt64.ofNat new.itValue.wholeMs + intervalWord else 0) ≠ 0 ↔ _
    by_cases once : intervalWord = 0
    · rw [once, UInt64.toNat_zero] at intervalMs
      rw [if_neg (not_not.mpr once)]
      exact ⟨fun zero => absurd rfl zero, fun both => absurd intervalMs.symm both.1⟩
    · have lasting : intervalWord.toNat ≠ 0 := fun zero => once (UInt64.toNat_inj.mp zero)
      rw [if_pos once, ne_eq, ← UInt64.toNat_inj, UInt64.toNat_add, now, intervalMs, UInt64.toNat_zero]
      omega
  constructor
  · rintro ⟨⟨n, some, rang, silent, reached, -, again⟩, -⟩
    -- The first alarm comes at a time of the clock, so the end of the requested time is one as well.
    have clock := (s.jiffies + UInt64.ofNat n).toNat_lt
    have fits : s.jiffies.toNat + new.itValue.wholeMs < 2 ^ 64 := by omega
    have quiet := quiet_of_rings inside silent
    rw [rings_eq inside quiet] at rang
    have armed : 0 < new.itValue.wholeMs := by
      -- A time that was cut to zero would have disarmed the timer.
      by_contra none
      have zero : valueWord = 0 := UInt64.toNat_inj.mp (by rw [valueMs, UInt64.toNat_zero]; omega)
      rw [expired, zero, setItimer_zero] at rang
      simp at rang
    obtain ⟨procs, sum⟩ := known fits armed
    obtain ⟨before, due⟩ := quiet_before
      ((schedProcSetItimer s caller.proc valueWord intervalWord).procs caller.proc)
      (by rw [procs]; exact used) armed fits (by rw [procs]; exact sum)
    have last : n = new.itValue.wholeMs := by
      rcases Nat.lt_trichotomy n new.itValue.wholeMs with less | same | more
      · exact absurd ((before n less).symm.trans rang) (by decide)
      · exact same
      · exact absurd ((quiet _ armed more).symm.trans due) (by decide)
    subst last
    rw [ticks_toNat fits] at reached
    refine ⟨by omega, fits, fun periodic => ?_⟩
    exact (rearmed fits armed periodic).mp (again periodic)
  · rintro ⟨whole, fits, lasting⟩
    have armed : 0 < new.itValue.wholeMs := by omega
    obtain ⟨procs, sum⟩ := known fits armed
    obtain ⟨before, due⟩ := quiet_before
      ((schedProcSetItimer s caller.proc valueWord intervalWord).procs caller.proc)
      (by rw [procs]; exact used) armed fits (by rw [procs]; exact sum)
    refine ⟨⟨new.itValue.wholeMs, armed, ?_, fun m some less => ?_, ?_, fun m some less => ?_, fun periodic => ?_⟩, ?_⟩
    · rw [rings_eq inside fun m _ less => before m less]
      exact due
    · rw [rings_eq inside fun k _ earlier => before k (earlier.trans less)]
      exact before m less
    · rw [ticks_toNat fits]
      omega
    · rw [ticks_toNat (by omega)]
      omega
    · exact (rearmed fits armed periodic).mpr (lasting periodic)
    · -- What is left right after the call is the time itself.
      have left : schedProcGetItimer (schedProcSetItimer s caller.proc valueWord intervalWord) caller.proc =
          (s.jiffies + valueWord - s.jiffies, intervalWord) := by
        have later : ¬ (s.jiffies + valueWord = 0 ∨ s.jiffies + valueWord ≤ s.jiffies) := by
          rw [← UInt64.toNat_inj, UInt64.le_iff_toNat_le, sum, UInt64.toNat_zero]
          omega
        rw [schedProcGetItimer, procs]
        exact congrArg (·, intervalWord) (if_neg later)
      refine ⟨⟨timevalOfMs intervalWord, timevalOfMs (s.jiffies + valueWord - s.jiffies)⟩, ?_, .inl ?_⟩
      · simp only [sysGetitimer, left, user]
        rfl
      · rw [timevalOfMs_us, UInt64.toNat_sub_of_le _ _ (UInt64.le_iff_toNat_le.mpr (by omega)), sum]
        omega

/-- A single alarm in one second comes when it should. -/
theorem setitimer_second :
    DoesAsSet (sysSetitimer ⟨5000, fun _ => ⟨true, 7, 0, 0⟩, []⟩ ⟨true, 3⟩ 0 (some (some ⟨⟨0, 0⟩, ⟨1, 0⟩⟩)) true).1 ⟨true, 3⟩ 5000
      ⟨⟨0, 0⟩, ⟨1, 0⟩⟩ :=
  (setitimer_iff (s := ⟨5000, fun _ => ⟨true, 7, 0, 0⟩, []⟩) rfl (by decide) rfl ⟨by decide, by decide⟩ ⟨by decide, by decide⟩
    (by decide)).mpr ⟨by decide, by decide, fun periodic => absurd (by decide) periodic⟩

/-- A call that asks for an alarm in half a millisecond succeeds and disarms the timer. -/
theorem setitimer_short :
    (⟨0, 500⟩ : LinuxTimeval).Valid ∧
    (sysSetitimer ⟨5000, fun _ => ⟨true, 7, 0, 0⟩, []⟩ ⟨true, 3⟩ 0 (some (some ⟨⟨0, 0⟩, ⟨0, 500⟩⟩)) true).2.isOk = true ∧
    ((sysSetitimer ⟨5000, fun _ => ⟨true, 7, 0, 0⟩, []⟩ ⟨true, 3⟩ 0 (some (some ⟨⟨0, 0⟩, ⟨0, 500⟩⟩)) true).1.procs 3).itimerExpiresMs = 0 ∧
    ¬ DoesAsSet (sysSetitimer ⟨5000, fun _ => ⟨true, 7, 0, 0⟩, []⟩ ⟨true, 3⟩ 0 (some (some ⟨⟨0, 0⟩, ⟨0, 500⟩⟩)) true).1 ⟨true, 3⟩ 5000
      ⟨⟨0, 0⟩, ⟨0, 500⟩⟩ := by
  refine ⟨⟨by decide, by decide⟩, by decide, by decide, fun does => ?_⟩
  obtain ⟨time, got, seen⟩ := does.seen
  cases got
  exact seen.elim (absurd (by decide)) (absurd (by decide))

end

end Enlil.Itimer
