import Enlil.Signal.Sigreturn
import Enlil.Signal.Tasks

/-! No mask ever blocks the two signals that end and stop a task, and no handler catches them. -/

namespace Enlil.Signal

/-- A mask without the two signals that cannot be blocked. -/
def Maskable (mask : BitVec 64) : Prop := mask &&& signalUnmaskableBits = 0

section

variable {mask other : BitVec 64}

theorem unmaskable_bit (i : Nat) : signalUnmaskableBits.getLsbD i = (decide (i = 8) || decide (i = 18)) := by
  rw [signalUnmaskableBits, BitVec.getLsbD_or]
  simp only [signalBit, sigkill, sigstop, BitVec.getLsbD_twoPow]
  grind

theorem maskable_iff : Maskable mask ↔ mask.getLsbD 8 = false ∧ mask.getLsbD 18 = false := by
  constructor
  · intro maskable
    have bit : ∀ i, (mask &&& signalUnmaskableBits).getLsbD i = false := fun i => by
      rw [maskable]
      simp
    have eighth := bit 8
    have eighteenth := bit 18
    rw [BitVec.getLsbD_and, unmaskable_bit] at eighth eighteenth
    exact ⟨by simpa using eighth, by simpa using eighteenth⟩
  · rintro ⟨eighth, eighteenth⟩
    refine BitVec.eq_of_getLsbD_eq fun i _ => ?_
    rw [BitVec.getLsbD_and, unmaskable_bit]
    rw [show (0 : BitVec 64).getLsbD i = false from BitVec.getLsbD_zero]
    by_cases first : i = 8
    · rw [first, eighth, Bool.false_and]
    · by_cases second : i = 18
      · rw [second, eighteenth, Bool.false_and]
      · simp only [first, second, decide_false, Bool.or_self, Bool.and_false]

theorem Maskable.zero : Maskable 0 := by simp [Maskable]

theorem Maskable.strip (mask : BitVec 64) : Maskable (signalStripUnmaskable mask) := by
  simp [maskable_iff, signalStripUnmaskable, unmaskable_bit]

theorem Maskable.or (first : Maskable mask) (second : Maskable other) : Maskable (mask ||| other) := by
  rw [maskable_iff] at *
  exact ⟨by rw [BitVec.getLsbD_or, first.1, second.1]; rfl, by rw [BitVec.getLsbD_or, first.2, second.2]; rfl⟩

theorem Maskable.and (first : Maskable mask) (other : BitVec 64) : Maskable (mask &&& other) := by
  rw [maskable_iff] at *
  exact ⟨by rw [BitVec.getLsbD_and, first.1, Bool.false_and], by rw [BitVec.getLsbD_and, first.2, Bool.false_and]⟩

theorem Maskable.bit {sig : Nat} (notKill : sig ≠ sigkill) (notStop : sig ≠ sigstop) :
    Maskable (signalBit sig) := by
  rw [maskable_iff]
  simp only [signalBit, BitVec.getLsbD_twoPow, sigkill, sigstop] at *
  constructor <;> simp <;> omega

theorem Maskable.strip_eq (maskable : Maskable mask) : signalStripUnmaskable mask = mask := by
  obtain ⟨eighth, eighteenth⟩ := maskable_iff.mp maskable
  refine BitVec.eq_of_getLsbD_eq fun i inside => ?_
  simp only [signalStripUnmaskable, BitVec.getLsbD_and, BitVec.getLsbD_not, unmaskable_bit, inside, decide_true,
    Bool.true_and]
  by_cases first : i = 8
  · rw [first, eighth, Bool.false_and]
  · by_cases second : i = 18
    · rw [second, eighteenth, Bool.false_and]
    · simp only [first, second, decide_false, Bool.or_self, Bool.not_false, Bool.and_true]

end

/-- The two signals have their default actions. -/
def Uncaught (actions : Nat → SigAction) : Prop :=
  (actions sigkill).saHandler = sigDfl ∧ (actions sigstop).saHandler = sigDfl

/-- What a task can neither block nor catch. -/
structure Kept (c : Context) : Prop where
  blocked : Maskable c.st.blocked
  uncaught : Uncaught c.actions

section

variable {c c' : Context} {sig : Nat} {act : SigAction}

theorem Uncaught.update {actions : Nat → SigAction} (uncaught : Uncaught actions)
    (change : act.saHandler = sigDfl ∨ (sig ≠ sigkill ∧ sig ≠ sigstop)) :
    Uncaught (Function.update actions sig act) := by
  obtain ⟨kill, stop⟩ := uncaught
  rcases change with dfl | ⟨notKill, notStop⟩
  · constructor
    · by_cases same : sigkill = sig
      · rw [same, Function.update_self, dfl]
      · rw [Function.update_of_ne same, kill]
    · by_cases same : sigstop = sig
      · rw [same, Function.update_self, dfl]
      · rw [Function.update_of_ne same, stop]
  · exact ⟨by rw [Function.update_of_ne (Ne.symm notKill), kill], by rw [Function.update_of_ne (Ne.symm notStop), stop]⟩

theorem Kept.called (kept : Kept c) (notKill : sig ≠ sigkill) (notStop : sig ≠ sigstop) :
    Kept (c.called sig act) where
  blocked := by
    unfold Context.called handlerMask
    dsimp only
    split
    · exact (Maskable.strip _).or (.bit notKill notStop)
    · exact Maskable.strip _
  uncaught := by
    unfold Context.called
    dsimp only
    split
    · exact kept.uncaught.update (.inl rfl)
    · exact kept.uncaught

theorem install_cases {installed : Except Errno Unit} (ran : signalInstallUserFrame c sig act = .ok (installed, c')) :
    (∃ mm, installed = .ok () ∧ c' = { c with mm := some mm }.called sig act) ∨
      ∃ error mm, installed = .error error ∧ c' = { c with mm := mm } := by
  unfold signalInstallUserFrame at ran
  split at ran
  · cases ran
    exact .inr ⟨_, c.mm, rfl, rfl⟩
  split at ran
  · cases ran
    exact .inr ⟨_, c.mm, rfl, rfl⟩
  split at ran
  · cases ran
    exact .inr ⟨_, c.mm, rfl, rfl⟩
  obtain ⟨⟨copied, mm⟩, _, rest⟩ := bind_ok ran
  dsimp only at rest
  split at rest
  · cases rest
    exact .inl ⟨mm, rfl, rfl⟩
  · cases rest
    exact .inr ⟨_, some mm, rfl, rfl⟩

theorem Kept.deliverLoop (fuel : Nat) : ∀ {c : Context} {outcome : Outcome}, Kept c →
    deliverLoop c fuel = .ok (outcome, c') → Kept c' := by
  induction fuel with
  | zero =>
    intro c outcome kept ran
    cases ran
    exact kept
  | succ fuel ih =>
    intro c outcome kept ran
    rw [Signal.deliverLoop] at ran
    cases picked : signalPickPending c.st with
    | none =>
      simp only [picked] at ran
      cases ran
      exact kept
    | some sig =>
      simp only [picked] at ran
      -- Taking the signal out of the pending set changes neither the mask nor the actions.
      have taken : Kept { c with st := { c.st with pending := c.st.pending &&& ~~~signalBit sig } } :=
        ⟨kept.blocked, kept.uncaught⟩
      split at ran
      · exact ih taken ran
      split at ran
      · split at ran
        · refine ih ?_ ran
          exact ⟨kept.blocked, kept.uncaught⟩
        split at ran
        · cases ran
          exact ⟨kept.blocked, kept.uncaught⟩
        split at ran
        · cases ran
          exact taken
        · exact ih taken ran
      · -- Only the other signals have a handler to be called.
        rename_i _ caught
        have notKill : sig ≠ sigkill := fun same => caught (same ▸ kept.uncaught.1)
        have notStop : sig ≠ sigstop := fun same => caught (same ▸ kept.uncaught.2)
        obtain ⟨⟨installed, c₁⟩, attempt, rest⟩ := bind_ok ran
        rcases install_cases attempt with ⟨mm, rfl, rfl⟩ | ⟨error, mm, rfl, rfl⟩
        · cases rest
          exact Kept.called ⟨kept.blocked, kept.uncaught⟩ notKill notStop
        · cases rest
          exact ⟨kept.blocked, kept.uncaught⟩

theorem Kept.deliver {outcome : Outcome} (kept : Kept c) (ran : signalDeliverPending c = .ok (outcome, c')) :
    Kept c' := by
  unfold signalDeliverPending at ran
  split at ran
  · cases ran
    exact kept
  · exact kept.deliverLoop _ ran

theorem Kept.sigreturn (kept : Kept c) : Kept (signalSigreturnCurrent c).2 := by
  by_cases taken : ∃ sigframe, Accepts c sigframe
  · obtain ⟨sigframe, accepts⟩ := taken
    rw [sigreturn_accepts accepts]
    exact ⟨Maskable.strip _, kept.uncaught⟩
  · obtain ⟨error, same⟩ := sigreturn_refuses fun sigframe accepts => taken ⟨sigframe, accepts⟩
    rw [same]
    exact kept

theorem Kept.sigaction (kept : Kept c) (sig : Nat) (act : Option SigAction) :
    Kept (signalSigactionCurrent c sig act).2 := by
  unfold signalSigactionCurrent
  split
  · exact kept
  split
  · exact kept
  dsimp only
  split
  · exact kept
  split
  · exact kept
  · rename_i others
    exact ⟨kept.blocked, kept.uncaught.update (.inr (not_or.mp others))⟩

theorem Kept.sigprocmask (kept : Kept c) (how : How) (set : Option (BitVec 64)) :
    Kept (signalSigprocmaskCurrent c how set).2 := by
  unfold signalSigprocmaskCurrent
  split
  · exact kept
  dsimp only
  split
  · exact kept
  · exact ⟨kept.blocked.or (Maskable.strip _), kept.uncaught⟩
  · exact ⟨kept.blocked.and _, kept.uncaught⟩
  · exact ⟨Maskable.strip _, kept.uncaught⟩
  · exact kept

end

/-- No task blocks the two signals, and no process catches them. -/
structure Unmasked (s : State) : Prop where
  blocked : ∀ slot, Maskable (s.st slot).blocked
  uncaught : ∀ slot, Uncaught (s.actions slot)

section

variable {s s' : State} {t : Nat}

theorem Unmasked.setSt (unmasked : Unmasked s) (t : Nat) {change : SignalState → SignalState}
    (maskable : ∀ st, Maskable st.blocked → Maskable (change st).blocked) : Unmasked (s.setSt t change) where
  blocked slot := by
    by_cases same : slot = s.slot t
    · simp only [State.setSt, same, Function.update_self]
      exact maskable _ (unmasked.blocked _)
    · simp only [State.setSt, Function.update_of_ne same]
      exact unmasked.blocked slot
  uncaught := unmasked.uncaught

theorem Unmasked.setActions (unmasked : Unmasked s) (t : Nat) {actions : Nat → SigAction} (uncaught : Uncaught actions) :
    Unmasked (s.setActions t actions) where
  blocked := unmasked.blocked
  uncaught slot := by
    by_cases same : slot = s.procSlot t
    · simp only [State.setActions, same, Function.update_self]
      exact uncaught
    · simp only [State.setActions, Function.update_of_ne same]
      exact unmasked.uncaught slot

theorem Unmasked.sched (unmasked : Unmasked s) (sched : Sched.State) : Unmasked { s with sched } :=
  ⟨unmasked.blocked, unmasked.uncaught⟩

theorem Unmasked.context (unmasked : Unmasked s) (t : Nat) (view : View) : Kept (s.context t view) :=
  ⟨unmasked.blocked _, unmasked.uncaught _⟩

theorem Unmasked.restore (unmasked : Unmasked s) (t : Nat) {c : Context} (kept : Kept c) : Unmasked (s.restore t c) :=
  (unmasked.setSt t fun _ _ => kept.blocked).setActions t kept.uncaught

theorem uncaught_reset : Uncaught resetActions := ⟨rfl, rfl⟩

theorem Unmasked.taskInit (unmasked : Unmasked s) (t parentPid : Nat) : Unmasked (signalTaskInit s t parentPid) :=
  (unmasked.setSt t fun _ _ => Maskable.zero).setActions t uncaught_reset

theorem Unmasked.taskFork (unmasked : Unmasked s) (child parent : Nat) : Unmasked (signalTaskFork s child parent) := by
  unfold signalTaskFork
  dsimp only
  refine Unmasked.setActions (unmasked.setSt child fun _ _ => ?_) child (unmasked.uncaught _)
  exact unmasked.blocked (s.slot parent)

theorem Unmasked.taskCloneThread (unmasked : Unmasked s) (child parent : Nat) :
    Unmasked (signalTaskCloneThread s child parent) := by
  unfold signalTaskCloneThread
  dsimp only
  refine unmasked.setSt child fun _ _ => ?_
  exact unmasked.blocked (s.slot parent)

theorem Unmasked.post (unmasked : Unmasked s) (t sig : Nat) : Unmasked (post s t sig) :=
  unmasked.setSt t fun _ maskable => maskable

theorem Unmasked.signalChild (unmasked : Unmasked s) (parentPid : Nat) : Unmasked (signalChild s parentPid) := by
  unfold Signal.signalChild
  split
  · exact unmasked
  split
  · exact unmasked
  · exact unmasked.post _ _

theorem Unmasked.sendTask (unmasked : Unmasked s) (task : Option Nat) (sig : Nat) :
    Unmasked (signalSendTask s task sig).2 := by
  unfold signalSendTask
  split
  · exact unmasked
  rename_i t _
  split
  · dsimp only
    refine Unmasked.signalChild (Unmasked.post (Unmasked.sched ?_ _) _ _) _
    exact unmasked.setSt t fun _ maskable => maskable
  · dsimp only
    split
    · refine Unmasked.sched (Unmasked.setSt (unmasked.post t sig) t ?_) _
      exact fun _ maskable => maskable
    · exact unmasked.post t sig

theorem Unmasked.sendTgkill (unmasked : Unmasked s) (tgid tid sig : Nat) :
    Unmasked (signalSendTgkill s tgid tid sig).2 := by
  unfold signalSendTgkill
  repeat' split
  all_goals first | exact unmasked | exact unmasked.sendTask _ _

theorem Unmasked.sendMembers (pgid sig : Nat) (ts : List Nat) : ∀ {s : State}, Unmasked s →
    Unmasked (sendMembers s pgid sig ts).2 := by
  induction ts with
  | nil => exact fun unmasked => unmasked
  | cons t rest ih =>
    intro s unmasked
    rw [Signal.sendMembers]
    split
    · exact ih (unmasked.sendTask _ _)
    · exact ih unmasked

theorem Unmasked.sendPgrp (unmasked : Unmasked s) (pgid sig : Nat) : Unmasked (signalSendPgrp s pgid sig).2 := by
  unfold signalSendPgrp
  split
  · exact unmasked
  · exact Unmasked.sendMembers pgid sig _ unmasked

theorem Unmasked.finishExit (unmasked : Unmasked s) (t : Nat) (code : Int) (cleanup : List Sched.Cleanup) :
    Unmasked (finishExit s t code cleanup) := by
  have ended : Unmasked (signalTaskExit
      { s with sched := cleanup.foldl Sched.Cleanup.apply (Sched.finishExitBegin s.sched t code) } t) :=
    (unmasked.sched _).setSt t fun _ maskable => maskable
  unfold Signal.finishExit
  dsimp only
  split
  · exact (ended.signalChild _).sched _
  · exact ended.sched _

theorem Unmasked.settle (unmasked : Unmasked s) (outcome : Outcome) (cleanup : List Sched.Cleanup) :
    Unmasked (settle s outcome cleanup) := by
  cases outcome with
  | returned => exact unmasked
  | handler => exact unmasked
  | terminated sig => exact unmasked.finishExit _ _ _
  | stopped sig => exact (unmasked.signalChild _).sched _

theorem deliver_ok {view : View} {cleanup : List Sched.Cleanup} {outcome : Outcome} {c : Context}
    (ran : deliver s view cleanup = .ok (outcome, c, s')) :
    signalDeliverPending (s.context s.sched.current view) = .ok (outcome, c) ∧
      s' = settle (s.restore s.sched.current c) outcome cleanup := by
  obtain ⟨⟨outcome', c'⟩, delivered, rest⟩ := bind_ok ran
  cases rest
  exact ⟨delivered, rfl⟩

theorem liftMemory_ok {α : Type} {result : Except Pmm.Halt α} {a : α} (returned : liftMemory result = .ok a) :
    result = .ok a := by
  cases result with
  | ok b => exact congrArg _ (Except.ok.inj returned)
  | error halt => cases returned

theorem Unmasked.exec (unmasked : Unmasked s) {op : Op} (returned : exec s op = .ok s') : Unmasked s' := by
  cases op with
  | createTask priority =>
    obtain ⟨⟨t, sched⟩, _, rest⟩ := bind_ok returned
    cases rest
    exact (unmasked.sched _).taskInit _ _
  | createUser priority =>
    obtain ⟨⟨t, sched⟩, _, rest⟩ := bind_ok returned
    cases rest
    exact (unmasked.sched _).taskInit _ _
  | fork priority =>
    obtain ⟨⟨t, sched⟩, _, rest⟩ := bind_ok returned
    cases rest
    exact (unmasked.sched sched).taskFork _ _
  | cloneThread priority =>
    obtain ⟨⟨t, sched⟩, _, rest⟩ := bind_ok returned
    cases rest
    exact (unmasked.sched sched).taskCloneThread _ _
  | exec =>
    cases returned
    exact (unmasked.setSt _ fun _ _ => Maskable.strip _).setActions _ uncaught_reset
  | finishExit t code cleanup =>
    cases returned
    exact unmasked.finishExit _ _ _
  | turn op =>
    obtain ⟨sched, _, rest⟩ := bind_ok returned
    cases rest
    exact unmasked.sched _
  | sendTask task sig =>
    cases returned
    exact unmasked.sendTask _ _
  | sendPid pid sig =>
    cases returned
    exact unmasked.sendTask _ _
  | sendTgkill tgid tid sig =>
    cases returned
    exact unmasked.sendTgkill _ _ _
  | sendPgrp pgid sig =>
    cases returned
    exact unmasked.sendPgrp _ _
  | sigaction view sig act =>
    cases returned
    exact unmasked.restore _ ((unmasked.context _ view).sigaction sig act)
  | sigprocmask view how set =>
    cases returned
    exact unmasked.restore _ ((unmasked.context _ view).sigprocmask how set)
  | sigreturn view =>
    cases returned
    exact unmasked.restore _ (unmasked.context _ view).sigreturn
  | deliver view cleanup =>
    obtain ⟨⟨outcome, c, s₁⟩, ran, rest⟩ := bind_ok returned
    cases rest
    obtain ⟨delivered, rfl⟩ := deliver_ok (liftMemory_ok ran)
    exact (unmasked.restore _ ((unmasked.context _ view).deliver delivered)).settle _ _
  | fault ec =>
    cases returned
    exact unmasked.sendTgkill _ _ _
  | consumeStopReport t =>
    cases returned
    unfold signalTaskConsumeStopReport
    dsimp only
    split
    · exact unmasked
    · exact unmasked.setSt _ fun _ maskable => maskable

theorem signalInit_unmasked : Unmasked signalInit := ⟨fun _ => Maskable.zero, fun _ => uncaught_reset⟩

theorem run_unmasked (run : Run exec (fun s op => op.Valid s) signalInit s) : Unmasked s :=
  run.invariant signalInit_unmasked fun unmasked _ returned => unmasked.exec returned

end

end Enlil.Signal
