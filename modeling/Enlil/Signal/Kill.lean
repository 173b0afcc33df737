import Enlil.Sched.RunQueue
import Enlil.Signal.Masks

/-! When a pending or a newly sent `SIGKILL` takes effect. -/

namespace Enlil.Signal

open Mmu Pmm

/-- A signal is pending and not blocked. -/
def SignalState.Ready (st : SignalState) (sig : Nat) : Prop := 1 ≤ sig ∧ st.ready.getLsbD (sig - 1) = true

/-- A process has a handler for a signal. -/
def Caught (c : Context) (sig : Nat) : Prop :=
  (c.actions sig).saHandler ≠ sigDfl ∧ (c.actions sig).saHandler ≠ sigIgn

/-- The signal is caught, ready and below `SIGKILL`, and the ready signals below it are ignored. -/
structure Distracts (c : Context) (sig : Nat) : Prop where
  below : sig < sigkill
  ready : c.st.Ready sig
  caught : Caught c sig
  first : ∀ other < sig, c.st.Ready other → (c.actions other).saHandler = sigIgn

/-- The signal frame of a signal cannot be put on the user stack. -/
def Refused (c : Context) (sig : Nat) : Prop :=
  (sigSp c.frame).toNat < mmuUserBase ∨ mmuUserLimit ≤ (sigSp c.frame).toNat ∨ c.mm = none ∨
    ∃ mm mm', c.mm = some mm ∧
      copyToUser mm (sigSp c.frame).toNat (sigframeOf c sig).encode 0 sigframeSize (copySteps sigframeSize) =
        .ok (false, mm')

/-- The task is in no handler, and no other signal takes it into one. -/
def Undistracted (c : Context) : Prop := c.st.inHandler = false ∧ ∀ sig, Distracts c sig → Refused c sig

/-- A delivery ends the task. -/
def Terminates (result : Except Pmm.Halt (Outcome × Context)) : Prop := ∃ sig c, result = .ok (.terminated sig, c)

section

variable {c : Context} {sig : Nat}

theorem install_terminates (caught : Caught c sig) :
    Terminates (do
      let (installed, c) ← signalInstallUserFrame c sig (c.actions sig)
      match installed with
      | .ok () => return (Outcome.handler, c)
      | .error _ => return (Outcome.terminated sig, c)) ↔ Refused c sig := by
  have handler : ¬ ((c.actions sig).saHandler = sigDfl ∨ (c.actions sig).saHandler = sigIgn) :=
    not_or.mpr caught
  unfold signalInstallUserFrame
  rw [if_neg handler]
  cases memory : c.mm with
  | none => exact ⟨fun _ => .inr (.inr (.inl memory)), fun _ => ⟨sig, c, rfl⟩⟩
  | some mm =>
    dsimp only
    split
    · rename_i outside
      exact ⟨fun _ => outside.elim .inl (.inr ∘ .inl), fun _ => ⟨sig, c, rfl⟩⟩
    · rename_i inside
      -- With an address in the window and a memory, only the copy can fail.
      have refused : Refused c sig ↔ ∃ mm', copyToUser mm (sigSp c.frame).toNat (sigframeOf c sig).encode 0
          sigframeSize (copySteps sigframeSize) = .ok (false, mm') := by
        constructor
        · rintro (low | high | gone | ⟨_, mm', found, failed⟩)
          · exact absurd (.inl low) inside
          · exact absurd (.inr high) inside
          · rw [memory] at gone
            cases gone
          · cases memory.symm.trans found
            exact ⟨mm', failed⟩
        · rintro ⟨mm', failed⟩
          exact .inr (.inr (.inr ⟨mm, mm', memory, failed⟩))
      rw [refused]
      generalize copyToUser mm (sigSp c.frame).toNat (sigframeOf c sig).encode 0 sigframeSize
        (copySteps sigframeSize) = copy
      match copy with
      | .ok (false, mm') => exact ⟨fun _ => ⟨mm', rfl⟩, fun _ => ⟨sig, _, rfl⟩⟩
      | .error halt | .ok (true, mm') =>
        constructor
        · rintro ⟨_, _, ended⟩
          cases ended
        · rintro ⟨_, failed⟩
          cases failed

/-- The task after a pending signal was taken. -/
def Context.taken (c : Context) (sig : Nat) : Context :=
  { c with st := { c.st with pending := c.st.pending &&& ~~~(signalBit sig) } }

theorem ready_taken (i : Nat) : (c.taken sig).st.ready.getLsbD i =
    (c.st.ready.getLsbD i && !decide (i = sig - 1)) := by
  by_cases inside : i < 64
  · simp only [Context.taken, SignalState.ready, signalBit, BitVec.getLsbD_or, BitVec.getLsbD_and, BitVec.getLsbD_not,
      BitVec.getLsbD_twoPow, inside, decide_true, Bool.true_and]
    by_cases same : i = sig - 1
    · subst same
      simp [inside]
    · simp [same, Ne.symm same]
  · rw [BitVec.getLsbD_of_ge _ _ (by omega), BitVec.getLsbD_of_ge _ _ (by omega), Bool.false_and]

theorem distracts_taken {other : Nat} (valid : 1 ≤ sig) (ignored : (c.actions sig).saHandler = sigIgn) :
    Distracts (c.taken sig) other ↔ Distracts c other := by
  have same : ∀ τ, τ ≠ sig → ((c.taken sig).st.Ready τ ↔ c.st.Ready τ) := by
    intro τ apart
    unfold SignalState.Ready
    refine and_congr_right fun positive => ?_
    have other : ¬ τ - 1 = sig - 1 := by omega
    rw [ready_taken]
    simp only [other, decide_false, Bool.not_false, Bool.and_true]
  constructor
  · rintro ⟨below, ready, caught, first⟩
    have apart : other ≠ sig := fun equal => caught.2 (equal ▸ ignored)
    refine ⟨below, (same other apart).mp ready, caught, fun τ lower readyτ => ?_⟩
    by_cases equal : τ = sig
    · exact equal ▸ ignored
    · exact first τ lower ((same τ equal).mpr readyτ)
  · rintro ⟨below, ready, caught, first⟩
    have apart : other ≠ sig := fun equal => caught.2 (equal ▸ ignored)
    refine ⟨below, (same other apart).mpr ready, caught, fun τ lower readyτ => ?_⟩
    by_cases equal : τ = sig
    · exact equal ▸ ignored
    · exact first τ lower ((same τ equal).mp readyτ)

theorem pick_kill (pending : c.st.pending.getLsbD 8 = true) :
    ∃ sig, signalPickPending c.st = some sig ∧ sig ≤ sigkill ∧ c.st.Ready sig ∧ ∀ other < sig, ¬ c.st.Ready other := by
  have kill : c.st.ready.getLsbD 8 = true := by
    rw [SignalState.ready, BitVec.getLsbD_or, BitVec.getLsbD_and, BitVec.getLsbD_and, unmaskable_bit, pending]
    simp
  have some : c.st.ready ≠ 0 := by
    intro zero
    rw [zero] at kill
    cases kill
  obtain ⟨_, set, clear⟩ := Sched.ctz_spec some
  refine ⟨1 + Sched.ctz c.st.ready, by rw [signalPickPending, if_neg some], ?_, ⟨by omega, ?_⟩, fun other lower => ?_⟩
  · unfold sigkill
    by_contra above
    rw [clear 8 (by omega)] at kill
    cases kill
  · rwa [Nat.add_sub_cancel_left]
  · rintro ⟨positive, ready⟩
    rw [clear (other - 1) (by omega)] at ready
    cases ready

theorem deliverLoop_round {fuel : Nat} (picked : signalPickPending c.st = some sig) (low : sig ≤ sigkill) :
    Terminates (deliverLoop c (fuel + 1)) ↔
      if (c.actions sig).saHandler = sigIgn then Terminates (deliverLoop (c.taken sig) fuel)
      else if (c.actions sig).saHandler = sigDfl then True
      else Refused c sig := by
  -- The default action of these signals is to end the task.
  have range : sig ≠ sigchld ∧ sig ≠ sigcont ∧ sig ≠ sigwinch ∧ sig ≠ sigstop ∧ sig ≠ sigtstp ∧ sig ≠ sigttin ∧
      sig ≠ sigttou := by
    unfold sigkill sigchld sigcont sigwinch sigstop sigtstp sigttin sigttou at *
    omega
  have noIgnore : signalDefaultIgnore sig = false := by simp [signalDefaultIgnore, range]
  have noStop : signalDefaultStop sig = false := by simp [signalDefaultStop, range]
  have ends : signalDefaultTerminate sig = true := by simp [signalDefaultTerminate, noIgnore, noStop, range]
  rw [deliverLoop, picked]
  dsimp only
  by_cases ignored : (c.actions sig).saHandler = sigIgn
  · rw [if_pos (.inl ignored), if_pos ignored]
    rfl
  have kept : ¬ ((c.actions sig).saHandler = sigIgn ∨ (c.actions sig).saHandler = sigDfl ∧ signalDefaultIgnore sig) := by
    simp [ignored, noIgnore]
  by_cases dfl : (c.actions sig).saHandler = sigDfl
  · rw [if_neg kept, if_pos dfl, if_neg range.2.1, noStop, if_neg Bool.false_ne_true, if_pos ends, if_neg ignored,
      if_pos dfl]
    exact ⟨fun _ => trivial, fun _ => ⟨sig, _, rfl⟩⟩
  · rw [if_neg kept, if_neg dfl, if_neg ignored, if_neg dfl]
    exact install_terminates (c := c.taken sig) ⟨dfl, ignored⟩

theorem deliverLoop_kill (n : Nat) : ∀ {c : Context} {fuel : Nat}, c.st.pending.getLsbD 8 = true → Uncaught c.actions →
    (∀ sig, c.st.Ready sig → sigkill ≤ sig + n) → n < fuel →
    (Terminates (deliverLoop c fuel) ↔ ∀ sig, Distracts c sig → Refused c sig) := by
  induction n with
  | zero =>
    intro c fuel pending uncaught above enough
    obtain ⟨fuel, rfl⟩ : ∃ rest, fuel = rest + 1 := ⟨fuel - 1, by omega⟩
    obtain ⟨sig, picked, low, ready, first⟩ := pick_kill pending
    obtain rfl : sig = sigkill := Nat.le_antisymm low (above sig ready)
    rw [deliverLoop_round picked low, uncaught.1, if_neg (by decide), if_pos rfl]
    refine ⟨fun _ other distracts => ?_, fun _ => trivial⟩
    exact absurd (above other distracts.ready) (Nat.not_le.mpr distracts.below)
  | succ n ih =>
    intro c fuel pending uncaught above enough
    obtain ⟨fuel, rfl⟩ : ∃ rest, fuel = rest + 1 := ⟨fuel - 1, by omega⟩
    obtain ⟨sig, picked, low, ready, first⟩ := pick_kill pending
    rw [deliverLoop_round picked low]
    split_ifs with ignored dfl
    · -- An ignored signal is not `SIGKILL`, and it is gone in the next round.
      have apart : sig ≠ sigkill := by
        rintro rfl
        rw [uncaught.1] at ignored
        exact absurd ignored (by decide)
      have still : (c.taken sig).st.pending.getLsbD 8 = true := by
        have other : ¬ 8 = sig - 1 := by
          have := ready.1
          unfold sigkill at apart
          omega
        simp only [Context.taken, signalBit, BitVec.getLsbD_and, BitVec.getLsbD_not, BitVec.getLsbD_twoPow, pending]
        simp [Ne.symm other]
      rw [ih still uncaught (fun τ readyτ => ?_) (by omega)]
      · exact forall_congr' fun τ => imp_congr (distracts_taken ready.1 ignored) Iff.rfl
      · -- What is ready now was ready before, above the signal just taken.
        have was := readyτ.2
        rw [ready_taken] at was
        have readyBefore : c.st.Ready τ := ⟨readyτ.1, by simp_all⟩
        have notSig : τ ≠ sig := by
          rintro rfl
          simp at was
        have higher : ¬ τ < sig := fun lower => first τ lower readyBefore
        have := above sig ready
        omega
    · -- The default action ends the task, and hides every signal above.
      refine ⟨fun _ other distracts => ?_, fun _ => trivial⟩
      have notBelow : ¬ other < sig := fun lower => first other lower distracts.ready
      rcases Nat.lt_or_eq_of_le (Nat.not_lt.mp notBelow) with higher | rfl
      · have ignored' := distracts.first sig higher ready
        exact absurd ignored' ignored
      · exact absurd dfl distracts.caught.1
    · -- The signal is caught, and it is the only one that distracts.
      have below : sig < sigkill := by
        refine Nat.lt_of_le_of_ne low ?_
        rintro rfl
        exact dfl uncaught.1
      have distracts : Distracts c sig := ⟨below, ready, ⟨dfl, ignored⟩, fun τ lower readyτ =>
        absurd readyτ (first τ lower)⟩
      refine ⟨fun refused other distracts' => ?_, fun all => all sig distracts⟩
      have notBelow : ¬ other < sig := fun lower => first other lower distracts'.ready
      rcases Nat.lt_or_eq_of_le (Nat.not_lt.mp notBelow) with higher | rfl
      · exact absurd (distracts'.first sig higher ready) ignored
      · exact refused

theorem deliver_kill_iff (isUser : c.isUser = true) (pending : c.st.pending.getLsbD 8 = true)
    (uncaught : Uncaught c.actions) : Terminates (signalDeliverPending c) ↔ Undistracted c := by
  unfold signalDeliverPending
  rw [isUser, Bool.not_true, Bool.false_or]
  split
  · rename_i inHandler
    constructor
    · rintro ⟨_, _, ended⟩
      cases ended
    · rintro ⟨free, _⟩
      rw [inHandler] at free
      cases free
  · rename_i free
    have free : c.st.inHandler = false := by simpa using free
    rw [deliverLoop_kill 8 pending uncaught (fun sig ready => by have := ready.1; unfold sigkill; omega)
      (by decide)]
    exact ⟨fun all => ⟨free, all⟩, fun undistracted => undistracted.2⟩

end

/-- `SIGKILL` is pending for a task. -/
def Killed (s : State) (t : Nat) : Prop := (s.st (s.slot t)).pending.getLsbD (sigkill - 1) = true

/-- A delivery comes back with the current task ended. -/
def Ends (s : State) (view : View) (cleanup : List Sched.Cleanup) : Prop :=
  ∃ outcome c s', deliver s view cleanup = .ok (outcome, c, s') ∧ (s'.sched.tcb s.sched.current).state = .zombie

/-- The task is blocked after `SIGKILL` was sent to it. -/
def LeftBlocked (s : State) (t : Nat) : Prop :=
  ((signalSendTask s (some t) sigkill).2.sched.tcb t).state = .blocked

/-- `SIGKILL` takes effect on delivery to the current task, and wakes whatever task it is sent to. -/
structure Effective (s : State) : Prop where
  ends : receives s s.sched.current = true → Killed s s.sched.current → ∀ view cleanup, Ends s view cleanup
  wakes : ∀ t, receives s t = true → ¬ LeftBlocked s t

section

variable {s : State} {t : Nat}

theorem signalChild_sched (parentPid : Nat) : (signalChild s parentPid).sched = s.sched := by
  unfold signalChild
  repeat' split
  all_goals rfl

theorem finishExitEnd_zombie (sched : Sched.State) (t : Nat) (code : Int) :
    ((Sched.finishExitEnd sched t code).tcb t).state = .zombie := by
  rw [Sched.finishExitEnd, Sched.setTcb_self]

theorem settle_zombie {outcome : Outcome} {cleanup : List Sched.Cleanup}
    (alive : (s.sched.tcb s.sched.current).state ≠ .zombie) :
    ((settle s outcome cleanup).sched.tcb s.sched.current).state = .zombie ↔ ∃ sig, outcome = .terminated sig := by
  cases outcome with
  | returned => simpa [settle] using alive
  | handler => simpa [settle] using alive
  | terminated sig =>
    refine ⟨fun _ => ⟨sig, rfl⟩, fun _ => ?_⟩
    unfold settle finishExit
    exact finishExitEnd_zombie _ _ _
  | stopped sig =>
    constructor
    · intro zombie
      unfold settle at zombie
      dsimp only at zombie
      rw [signalChild_sched, Sched.setTcb_self] at zombie
      cases zombie
    · rintro ⟨_, other⟩
      cases other

theorem ends_iff {view : View} {cleanup : List Sched.Cleanup} (alive : (s.sched.tcb s.sched.current).state ≠ .zombie) :
    Ends s view cleanup ↔ Terminates (signalDeliverPending (s.context s.sched.current view)) := by
  constructor
  · rintro ⟨outcome, c, s', ran, zombie⟩
    obtain ⟨delivered, rfl⟩ := deliver_ok ran
    obtain ⟨sig, rfl⟩ := (settle_zombie (s := s.restore s.sched.current c) alive).mp zombie
    exact ⟨sig, c, delivered⟩
  · rintro ⟨sig, c, delivered⟩
    refine ⟨_, c, _, by rw [deliver, delivered]; rfl, ?_⟩
    exact (settle_zombie (s := s.restore s.sched.current c) alive).mpr ⟨sig, rfl⟩

theorem schedUnblock_state (sched : Sched.State) (t : Nat) : ((Sched.schedUnblock sched t).tcb t).state ≠ .blocked := by
  unfold Sched.schedUnblock
  split
  · unfold Sched.preemptIfUrgent Sched.rqPush Sched.State.setTcb
    dsimp only
    split <;> simp
  · rename_i awake
    exact awake

theorem leftBlocked_iff (receiver : receives s t = true) :
    LeftBlocked s t ↔ (s.sched.tcb t).state = .blocked ∧ (s.st (s.slot t)).stopped = false := by
  obtain ⟨isUser, alive⟩ := Bool.and_eq_true_iff.mp receiver
  have alive : (s.sched.tcb t).state ≠ .zombie := by simpa using alive
  have target : checkTarget s (some t) sigkill = .ok t := by
    have valid : signalValid sigkill = true := by decide
    simp [checkTarget, valid, isUser, alive]
  have other : sigkill ≠ sigcont := by decide
  have kept : ((post s t sigkill).st ((post s t sigkill).slot t)).stopped = (s.st (s.slot t)).stopped := by
    simp [post, State.setSt, State.slot]
  unfold LeftBlocked signalSendTask
  rw [target]
  dsimp only
  rw [if_neg other, kept]
  split
  · rename_i woken
    exact ⟨fun left => absurd left (schedUnblock_state _ t), fun blocked => by simp [woken.2.1] at blocked⟩
  · rename_i notStopped
    constructor
    · intro left
      refine ⟨left, ?_⟩
      by_contra stopped
      exact notStopped ⟨rfl, by simpa using stopped, left⟩
    · exact fun blocked => blocked.1

/--
Where `SIGKILL` takes effect, in every run.

A delivery to a task with `SIGKILL` pending ends it exactly if the task is in no handler and no ready signal below gets it into one.
A task that `SIGKILL` is sent to is not left blocked exactly if it was not blocked, or blocked by a stop.
-/
theorem run_kill_effective (run : Run exec (fun s op => op.Valid s) signalInit s) :
    (receives s s.sched.current = true → Killed s s.sched.current → ∀ view cleanup,
      (Ends s view cleanup ↔ Undistracted (s.context s.sched.current view))) ∧
    ∀ t, receives s t = true →
      (¬ LeftBlocked s t ↔ ((s.sched.tcb t).state = .blocked → (s.st (s.slot t)).stopped = true)) := by
  have unmasked := run_unmasked run
  constructor
  · intro receiver pending view cleanup
    obtain ⟨isUser, alive⟩ := Bool.and_eq_true_iff.mp receiver
    rw [ends_iff (by simpa using alive)]
    exact deliver_kill_iff isUser pending (unmasked.uncaught _)
  · intro t receiver
    rw [leftBlocked_iff receiver, not_and, Bool.not_eq_false]

end

/-- A user task is created, gets the processor and blocks, as in a wait for a futex, a message or a socket. -/
def blockedTask : List Op := [.createUser 10, .turn .schedule, .turn .block]

instance (s : State) : (op : Op) → Decidable (op.Valid s)
  | .turn _ => inferInstanceAs (Decidable (_ ∧ _))
  | .finishExit _ _ _ | .sendTask (some _) _ | .consumeStopReport _ => inferInstanceAs (Decidable (_ < _))
  | .createTask _ | .createUser _ | .fork _ | .cloneThread _ | .exec | .sendTask none _ | .sendPid _ _
  | .sendTgkill _ _ _ | .sendPgrp _ _ | .sigaction _ _ _ | .sigprocmask _ _ _ | .sigreturn _ | .deliver _ _
  | .fault _ => .isTrue trivial

theorem blockedTask_run : ∃ s, Run exec (fun s op => op.Valid s) signalInit s ∧
    (receives s 2 && (s.sched.tcb 2).state = .blocked && !(s.st (s.slot 2)).stopped) = true := by
  have found : (runList exec (fun s op => op.Valid s) signalInit blockedTask).any
      (fun s => receives s 2 && (s.sched.tcb 2).state = .blocked && !(s.st (s.slot 2)).stopped) = true := by
    decide +kernel
  exact runList_any found

/-- The blocked task is not left blocked exactly if it is stopped, which it is not. -/
theorem run_kill_effective_blockedTask : ∃ s, Run exec (fun s op => op.Valid s) signalInit s ∧
    (s.sched.tcb 2).state = .blocked ∧
    (¬ LeftBlocked s 2 ↔ ((s.sched.tcb 2).state = .blocked → (s.st (s.slot 2)).stopped = true)) := by
  obtain ⟨s, run, seen⟩ := blockedTask_run
  simp only [Bool.and_eq_true, decide_eq_true_eq, Bool.not_eq_true'] at seen
  exact ⟨s, run, seen.1.2, (run_kill_effective run).2 2 seen.1.1⟩

/-- A task blocked in a system call stays blocked when it is killed. -/
theorem kill_leaves_blocked : ¬ ∀ s, Run exec (fun s op => op.Valid s) signalInit s → Effective s := by
  intro effective
  obtain ⟨s, run, seen⟩ := blockedTask_run
  simp only [Bool.and_eq_true, decide_eq_true_eq, Bool.not_eq_true'] at seen
  exact (effective s run).wakes 2 seen.1.1 ((leftBlocked_iff seen.1.1).mpr ⟨seen.1.2, seen.2⟩)

end Enlil.Signal
