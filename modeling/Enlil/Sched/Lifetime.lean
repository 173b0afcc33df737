import Enlil.Sched.QueueRuns

/-! What scheduling leaves alone, and how the references to processes are counted. -/

namespace Enlil.Sched

/-- Two states of a task that differ in its turn to run only. -/
structure SameTask (before after : Tcb) : Prop where
  pid : after.pid = before.pid
  procSlot : after.procSlot = before.procSlot
  exitCode : after.exitCode = before.exitCode
  isThread : after.isThread = before.isThread
  isUser : after.isUser = before.isUser
  isRt : after.isRt = before.isRt
  zombie : after.state = .zombie ↔ before.state = .zombie
  still : before.state = .zombie → after.stopped = true → before.stopped = true

/-- The current task and those in the queues are of the pool. -/
structure Bounded (s : State) : Prop where
  current : s.current < s.taskCount
  linked : ∀ p, ∀ t ∈ s.runQueue p, t < s.taskCount

/-- Two states that differ in the turns of the tasks only. -/
structure SchedOnly (s s' : State) : Prop where
  procs : s'.procs = s.procs
  taskCount : s'.taskCount = s.taskCount
  nextPid : s'.nextPid = s.nextPid
  task : ∀ t, SameTask (s.tcb t) (s'.tcb t)
  bounded : Bounded s → Bounded s'

section

variable {s s' s'' : State} {t : Nat} {f : Tcb → Tcb}

theorem SameTask.refl (t : Tcb) : SameTask t t := ⟨rfl, rfl, rfl, rfl, rfl, rfl, Iff.rfl, fun _ => id⟩

theorem SameTask.trans {a b c : Tcb} (first : SameTask a b) (second : SameTask b c) : SameTask a c :=
  ⟨second.pid.trans first.pid, second.procSlot.trans first.procSlot, second.exitCode.trans first.exitCode,
    second.isThread.trans first.isThread, second.isUser.trans first.isUser, second.isRt.trans first.isRt,
    second.zombie.trans first.zombie,
    fun dead stopped => first.still dead (second.still (first.zombie.mpr dead) stopped)⟩

theorem SchedOnly.refl (s : State) : SchedOnly s s := ⟨rfl, rfl, rfl, fun t => SameTask.refl (s.tcb t), id⟩

theorem SchedOnly.trans (first : SchedOnly s s') (second : SchedOnly s' s'') : SchedOnly s s'' :=
  ⟨second.procs.trans first.procs, second.taskCount.trans first.taskCount, second.nextPid.trans first.nextPid,
    fun t => (first.task t).trans (second.task t), second.bounded ∘ first.bounded⟩

theorem schedOnly_setTcb (same : SameTask (s.tcb t) (f (s.tcb t))) : SchedOnly s (s.setTcb t f) := by
  refine ⟨rfl, rfl, rfl, fun other => ?_, fun bounded => ⟨bounded.current, bounded.linked⟩⟩
  by_cases own : other = t
  · subst own
    simpa using same
  · simpa [own] using SameTask.refl (s.tcb other)

theorem schedOnly_turn (task : ∀ task, SameTask { task with state := (f task).state } (f task))
    (live : (s.tcb t).state ≠ .zombie) (lives : (f (s.tcb t)).state ≠ .zombie) : SchedOnly s (s.setTcb t f) := by
  apply schedOnly_setTcb
  have same := task (s.tcb t)
  exact ⟨same.pid, same.procSlot, same.exitCode, same.isThread, same.isUser, same.isRt, iff_of_false lives live,
    fun dead => absurd dead live⟩

theorem sameTask_refill (task : Tcb) : SameTask task (refillTicks task) := by
  unfold refillTicks
  split
  · exact ⟨rfl, rfl, rfl, rfl, rfl, rfl, Iff.rfl, fun _ => id⟩
  · exact SameTask.refl task

theorem schedOnly_resched (asked : Bool) : SchedOnly s { s with needResched := asked } :=
  ⟨rfl, rfl, rfl, fun t => SameTask.refl (s.tcb t), fun bounded => ⟨bounded.current, bounded.linked⟩⟩

theorem schedOnly_preempt : SchedOnly s (preemptIfUrgent s t) := by
  unfold preemptIfUrgent
  split
  · exact schedOnly_resched true
  · exact SchedOnly.refl s

theorem schedOnly_queues (same : SameTasks s s')
    (linked : Bounded s → ∀ p, ∀ t ∈ s'.runQueue p, t < s'.taskCount) : SchedOnly s s' := by
  obtain ⟨runQueue, readyBitmap, rfl⟩ := same
  exact ⟨rfl, rfl, rfl, fun t => SameTask.refl (s.tcb t), fun bounded => ⟨bounded.current, linked bounded⟩⟩

theorem schedOnly_push (inside : t < s.taskCount) : SchedOnly s (rqPush s t) := by
  apply schedOnly_queues ⟨_, _, rfl⟩
  intro bounded p other linked
  by_cases here : p = s.effPrio t
  · subst here
    have before : other ∈ s.runQueue (s.effPrio t) ∨ other = t := by simpa [rqPush] using linked
    rcases before with before | rfl
    · exact bounded.linked _ other before
    · exact inside
  · exact bounded.linked p other (by simpa [rqPush, here] using linked)

theorem schedOnly_setQueue {p : UInt8} {rest : List Nat} (inner : ∀ t ∈ rest, t ∈ s.runQueue p) :
    SchedOnly s (setQueue s p rest) := by
  apply schedOnly_queues ⟨_, _, rfl⟩
  intro bounded q other linked
  by_cases here : q = p
  · subst here
    exact bounded.linked q other (inner other (by simpa [setQueue] using linked))
  · exact bounded.linked q other (by simpa [setQueue, here] using linked)

theorem schedOnly_remove (p : UInt8) : SchedOnly s (rqRemove s t p) := by
  unfold rqRemove
  split
  · exact schedOnly_setQueue fun other linked => List.mem_of_mem_erase linked
  · exact SchedOnly.refl s

theorem schedOnly_unblock (inside : t < s.taskCount) : SchedOnly s (schedUnblock s t) := by
  unfold schedUnblock
  split
  · rename_i blocked
    have turned := schedOnly_turn (s := s) (t := t)
      (f := fun tcb => { tcb with state := .ready, ticksLeft := schedTickQuantum })
      (fun task => ⟨rfl, rfl, rfl, rfl, rfl, rfl, Iff.rfl, fun _ => id⟩) (by simp [blocked]) (by simp)
    exact turned.trans ((schedOnly_push (by exact inside)).trans schedOnly_preempt)
  · exact SchedOnly.refl s

theorem schedOnly_requeue (inside : t < s.taskCount) (p : UInt8) : SchedOnly s (requeue s t p) := by
  unfold requeue
  split
  · have removed := schedOnly_remove (s := s) (t := t) p
    exact removed.trans (schedOnly_push (by rw [removed.taskCount]; exact inside))
  · exact SchedOnly.refl s

theorem schedOnly_donate (inside : t < s.taskCount) (prio : UInt8) :
    SchedOnly s (schedTaskDonatePriority s t prio) := by
  have lent := schedOnly_setTcb (s := s) (t := t) (f := fun tcb =>
    if tcb.donatedPriority = 0xFF ∨ prio < tcb.donatedPriority then { tcb with donatedPriority := prio } else tcb)
    (by split <;> exact ⟨rfl, rfl, rfl, rfl, rfl, rfl, Iff.rfl, fun _ => id⟩)
  have moved := lent.trans (schedOnly_requeue (t := t) (by exact inside) (s.effPrio t))
  unfold schedTaskDonatePriority
  dsimp only
  split
  · exact moved.trans schedOnly_preempt
  · exact moved

theorem schedOnly_clear (inside : t < s.taskCount) : SchedOnly s (schedTaskClearDonation s t) := by
  have taken := schedOnly_setTcb (s := s) (t := t) (f := fun tcb => { tcb with donatedPriority := 0xFF })
    ⟨rfl, rfl, rfl, rfl, rfl, rfl, Iff.rfl, fun _ => id⟩
  have moved := taken.trans (schedOnly_requeue (t := t) (by exact inside) (s.effPrio t))
  unfold schedTaskClearDonation
  dsimp only
  split
  · split
    · split
      · exact moved.trans (schedOnly_resched true)
      · exact moved
    · exact moved
  · exact moved.trans schedOnly_preempt

theorem schedOnly_tick (jiffies : Nat) (timerExpired : Bool) : SchedOnly s (schedTick s jiffies timerExpired) := by
  have counted := schedOnly_setTcb (s := s) (t := s.current)
    (f := fun t => { t with ticksLeft := if t.ticksLeft > 0 then t.ticksLeft - 1 else 0 })
    ⟨rfl, rfl, rfl, rfl, rfl, rfl, Iff.rfl, fun _ => id⟩
  unfold schedTick
  dsimp only
  split
  · exact counted.trans (schedOnly_resched true)
  · exact counted

theorem pickNext_frame {prev fuel : Nat} {found : Option Nat} (picked : pickNext prev fuel s = some (found, s')) :
    SchedOnly s s' ∧ s'.current = s.current ∧
      ∀ next, found = some next → (s'.tcb next).state = .ready ∧ (Bounded s → next < s.taskCount) := by
  induction fuel generalizing s with
  | zero => cases picked
  | succ fuel ih =>
    rw [pickNext] at picked
    split at picked
    · cases picked
      exact ⟨SchedOnly.refl _, rfl, fun next none => (by cases none)⟩
    · rename_i p _
      unfold rqPop at picked
      cases queue : s.runQueue (UInt8.ofNat p) with
      | nil =>
        simp only [queue] at picked
        exact ih picked
      | cons t rest =>
        simp only [queue] at picked
        have popped : SchedOnly s (setQueue s (UInt8.ofNat p) rest) :=
          schedOnly_setQueue fun other linked => by simp [queue, linked]
        split at picked
        · -- A stale entry is dropped and the search goes on.
          obtain ⟨frame, current, chosen⟩ := ih picked
          refine ⟨popped.trans frame, current, fun next some => ?_⟩
          obtain ⟨ready, inside⟩ := chosen next some
          exact ⟨ready, fun bounded => inside (popped.bounded bounded)⟩
        · rename_i fresh
          push Not at fresh
          cases picked
          refine ⟨popped, rfl, fun next some => ?_⟩
          cases some
          exact ⟨fresh.2, fun bounded => bounded.linked (UInt8.ofNat p) t (by simp [queue])⟩

theorem schedOnly_requeuePrev (bounded : s.current < s.taskCount) : SchedOnly s (requeuePrev s) := by
  unfold requeuePrev
  split
  · rename_i running
    have turned := schedOnly_turn (s := s) (t := s.current) (f := fun t => { t with state := .ready })
      (fun task => ⟨rfl, rfl, rfl, rfl, rfl, rfl, Iff.rfl, fun _ => id⟩) (by simp [running]) (by simp)
    exact turned.trans (schedOnly_push (by exact bounded))
  · exact SchedOnly.refl s

theorem schedOnly_dispatch {next : Nat} (bounded : Bounded s) (inside : next < s.taskCount)
    (ready : (s.tcb next).state = .ready) : SchedOnly s (dispatch s next) ∧ Bounded (dispatch s next) := by
  have requeued := schedOnly_requeuePrev bounded.current
  have filled := requeued.trans (schedOnly_setTcb (t := s.current) (sameTask_refill _))
  have live : (((requeuePrev s).setTcb s.current refillTicks).tcb next).state ≠ .zombie := by
    rw [Ne, (filled.task next).zombie]
    simp [ready]
  have turned := filled.trans (schedOnly_turn (t := next) (f := fun t => refillTicks { t with state := .running })
    (fun task => by rw [refillTicks_state]; exact sameTask_refill _) live (by simp))
  have after := turned.bounded bounded
  have bounded' : Bounded (dispatch s next) := ⟨by simpa using inside, after.linked⟩
  exact ⟨⟨turned.procs, turned.taskCount, turned.nextPid, turned.task, fun _ => bounded'⟩, bounded'⟩

theorem schedOnly_schedule (bounded : Bounded s) (switched : scheduleLocked s = some s') : SchedOnly s s' := by
  unfold scheduleLocked at switched
  split at switched
  · cases switched
  · rename_i picked
    cases switched
    exact (pickNext_frame picked).1
  · rename_i next q picked
    cases switched
    obtain ⟨frame, current, chosen⟩ := pickNext_frame picked
    obtain ⟨ready, inside⟩ := chosen next rfl
    exact frame.trans (schedOnly_dispatch (frame.bounded bounded)
      (by rw [frame.taskCount]; exact inside bounded) ready).1

end

end Enlil.Sched
