import Enlil.Sched.QueueRuns

/-! What a step of the scheduler leaves as it was: who is awake, and the priorities. -/

namespace Enlil.Sched

/-- A change of a task that neither blocks nor ends it, nor touches its priorities. -/
structure Mild (before after : Tcb) : Prop where
  awake : before.state ≠ .blocked → after.state ≠ .blocked
  alive : before.state ≠ .zombie → after.state ≠ .zombie
  priority : after.priority = before.priority
  donated : after.donatedPriority = before.donatedPriority

/-- All tasks but some change mildly. -/
def MildBut (out : Set Nat) (s s' : State) : Prop := ∀ t, t ∉ out → Mild (s.tcb t) (s'.tcb t)

/-- A step that neither creates a task nor gives one another name. -/
structure Fixed (s s' : State) : Prop where
  taskCount : s'.taskCount = s.taskCount
  nextPid : s'.nextPid = s.nextPid
  pid : ∀ t, (s'.tcb t).pid = (s.tcb t).pid

/-- Every task of the pool is named by its place in it, and there are no other names. -/
structure Named (s : State) : Prop where
  room : s.taskCount ≤ schedMaxTasks
  next : s.nextPid = s.taskCount
  pid : ∀ t, (s.tcb t).pid = if t < s.taskCount then t else 0

section

variable {s s' s'' : State} {t : Nat} {f : Tcb → Tcb} {out : Set Nat}

theorem Mild.refl (t : Tcb) : Mild t t := ⟨id, id, rfl, rfl⟩

theorem Mild.trans {a b c : Tcb} (first : Mild a b) (second : Mild b c) : Mild a c :=
  ⟨second.awake ∘ first.awake, second.alive ∘ first.alive, second.priority.trans first.priority, second.donated.trans first.donated⟩

theorem MildBut.trans (first : MildBut out s s') (second : MildBut out s' s'') : MildBut out s s'' :=
  fun t other => (first t other).trans (second t other)

theorem mild_same (same : s'.tcb = s.tcb) : MildBut out s s' := by
  intro t _
  rw [same]
  exact Mild.refl _

theorem mild_setTcb (mild : Mild (s.tcb t) (f (s.tcb t))) : MildBut out s (s.setTcb t f) := by
  intro u _
  by_cases own : u = t
  · subst own
    rw [setTcb_self]
    exact mild
  · rw [setTcb_other _ own]
    exact Mild.refl _

theorem mild_others : MildBut {t} s (s.setTcb t f) := by
  intro u other
  rw [setTcb_other _ other]
  exact Mild.refl _

theorem rqRemove_tcb {p : UInt8} : (rqRemove s t p).tcb = s.tcb := by
  unfold rqRemove
  split <;> rfl

theorem preemptIfUrgent_tcb : (preemptIfUrgent s t).tcb = s.tcb := by
  unfold preemptIfUrgent
  split <;> rfl

theorem requeue_tcb {p : UInt8} : (requeue s t p).tcb = s.tcb := by
  unfold requeue
  split
  · exact rqRemove_tcb
  · rfl

theorem mild_refill (task : Tcb) : Mild task (refillTicks task) := by
  unfold refillTicks
  split
  · exact ⟨id, id, rfl, rfl⟩
  · exact Mild.refl task

theorem pickNext_tcb {prev fuel : Nat} {found : Option Nat} (picked : pickNext prev fuel s = some (found, s')) :
    s'.tcb = s.tcb := by
  -- Every round takes an entry out of a queue, and changes no task.
  induction fuel generalizing s with
  | zero => cases picked
  | succ fuel ih =>
    rw [pickNext] at picked
    split at picked
    · cases picked
      rfl
    · rename_i p _
      unfold rqPop at picked
      cases queue : s.runQueue (UInt8.ofNat p) with
      | nil =>
        simp only [queue] at picked
        exact ih picked
      | cons t rest =>
        simp only [queue] at picked
        split at picked
        · have dropped : s'.tcb = (setQueue s (UInt8.ofNat p) rest).tcb := ih picked
          exact dropped
        · cases picked
          rfl

theorem mild_dispatch (next : Nat) : MildBut out s (dispatch s next) := by
  have requeued : MildBut out s (requeuePrev s) := by
    unfold requeuePrev
    split
    · have turned : MildBut out s (s.setTcb s.current fun t => { t with state := .ready }) :=
        mild_setTcb ⟨fun _ => by simp, fun _ => by simp, rfl, rfl⟩
      exact turned.trans (mild_same rfl)
    · exact mild_same rfl
  have filled : MildBut out s ((requeuePrev s).setTcb s.current refillTicks) :=
    requeued.trans (mild_setTcb (mild_refill _))
  refine filled.trans ?_
  refine mild_setTcb (f := fun t => refillTicks { t with state := .running }) ?_
  refine Mild.trans (b := { ((requeuePrev s).setTcb s.current refillTicks).tcb next with state := .running }) ?_
    (mild_refill _)
  exact ⟨fun _ => by simp, fun _ => by simp, rfl, rfl⟩

theorem mild_schedule (switched : scheduleLocked s = some s') : MildBut out s s' := by
  unfold scheduleLocked at switched
  split at switched
  · cases switched
  · rename_i picked
    cases switched
    exact mild_same (pickNext_tcb picked)
  · rename_i next q picked
    cases switched
    have before : MildBut out s q := mild_same (pickNext_tcb picked)
    exact before.trans (mild_dispatch next)

theorem mild_unblock (t : Nat) : MildBut out s (schedUnblock s t) := by
  unfold schedUnblock
  split
  · have turned : MildBut out s (s.setTcb t fun tcb => { tcb with state := .ready, ticksLeft := schedTickQuantum }) :=
      mild_setTcb ⟨fun _ => by simp, fun _ => by simp, rfl, rfl⟩
    refine turned.trans (mild_same ?_)
    rw [preemptIfUrgent_tcb]
    rfl
  · exact mild_same rfl

theorem unblock_awake (t : Nat) : ((schedUnblock s t).tcb t).state ≠ .blocked := by
  unfold schedUnblock
  split
  · rw [preemptIfUrgent_tcb]
    simp [rqPush]
  · rename_i awake
    exact awake

theorem mild_block (blocked : schedBlock s = some s') : MildBut {s.current} s s' :=
  mild_others.trans (mild_schedule blocked)

theorem mild_tick (jiffies : Nat) (timerExpired : Bool) : MildBut out s (schedTick s jiffies timerExpired) := by
  have counted : MildBut out s (s.setTcb s.current fun t =>
      { t with ticksLeft := if t.ticksLeft > 0 then t.ticksLeft - 1 else 0 }) := mild_setTcb ⟨id, id, rfl, rfl⟩
  unfold schedTick
  dsimp only
  split
  · exact counted.trans (mild_same rfl)
  · exact counted

theorem mild_continue (t : Nat) : MildBut out s (signalContinue s t) := by
  unfold signalContinue
  split
  · exact mild_same rfl
  · have marked : MildBut out s (s.setTcb t fun tcb => { tcb with stopped := false, stopReported := false }) :=
      mild_setTcb ⟨id, id, rfl, rfl⟩
    exact marked.trans (mild_unblock t)

theorem mild_kill (t : Nat) : MildBut out s (signalKill s t) := by
  unfold signalKill
  split
  · have marked : MildBut out s (s.setTcb t fun tcb => { tcb with stopped := false }) := mild_setTcb ⟨id, id, rfl, rfl⟩
    exact marked.trans (mild_unblock t)
  · exact mild_same rfl

theorem mild_donate (t : Nat) (prio : UInt8) : MildBut {t} s (schedTaskDonatePriority s t prio) ∧
    ((schedTaskDonatePriority s t prio).tcb t).state = (s.tcb t).state := by
  have same : (schedTaskDonatePriority s t prio).tcb = (s.setTcb t fun tcb =>
      if tcb.donatedPriority = 0xFF ∨ prio < tcb.donatedPriority then { tcb with donatedPriority := prio }
      else tcb).tcb := by
    unfold schedTaskDonatePriority
    dsimp only
    split
    · rw [preemptIfUrgent_tcb, requeue_tcb]
    · exact requeue_tcb
  constructor
  · intro u other
    rw [same]
    exact mild_others u other
  · rw [same, setTcb_self]
    split <;> rfl

theorem mild_clear (t : Nat) : MildBut {t} s (schedTaskClearDonation s t) ∧
    ((schedTaskClearDonation s t).tcb t).state = (s.tcb t).state := by
  have same : (schedTaskClearDonation s t).tcb = (s.setTcb t fun tcb => { tcb with donatedPriority := 0xFF }).tcb := by
    unfold schedTaskClearDonation
    dsimp only
    split
    · split
      · split <;> exact requeue_tcb
      · exact requeue_tcb
    · rw [preemptIfUrgent_tcb, requeue_tcb]
  constructor
  · intro u other
    rw [same]
    exact mild_others u other
  · rw [same, setTcb_self]

theorem mild_exitBegin (t : Nat) (code : Int) : MildBut out s (finishExitBegin s t code) := by
  have marked : MildBut out s (s.setTcb t fun tcb => { tcb with exitCode := code }) := mild_setTcb ⟨id, id, rfl, rfl⟩
  unfold finishExitBegin
  dsimp only
  split
  · exact marked.trans (mild_same rqRemove_tcb)
  · exact marked

theorem mild_procRelease (slot : Nat) (code : Int) : MildBut out s (procRelease s slot code) := by
  unfold procRelease
  split
  · exact mild_same rfl
  · dsimp only
    split
    · exact mild_same rfl
    · split
      · rename_i leader _
        intro u _
        by_cases own : u = leader
        · subst own
          rw [setTcb_self]
          exact ⟨id, id, rfl, rfl⟩
        · rw [setTcb_other _ own]
          exact Mild.refl _
      · exact mild_same rfl

theorem mild_exitEnd (t : Nat) (code : Int) : MildBut {t} s (finishExitEnd s t code) ∧
    ((finishExitEnd s t code).tcb t).state = .zombie := by
  have marked : MildBut {t} s (s.setTcb t fun tcb => { tcb with stopped := false, stopReported := false }) :=
    mild_setTcb ⟨id, id, rfl, rfl⟩
  let started := s.setTcb t fun tcb => { tcb with stopped := false, stopReported := false }
  let released := procRelease started (started.tcb t).procSlot code
  have left : MildBut {t} started released := mild_procRelease _ code
  have ended : MildBut {t} released (released.setTcb t fun tcb => { tcb with state := .zombie }) := mild_others
  refine ⟨marked.trans (left.trans ended), ?_⟩
  unfold finishExitEnd
  rw [setTcb_self]

theorem mild_spawn {priority : UInt8} {isUser isThread : Bool} {bind : State → Nat → Option State}
    {noTask noProc : String} (binds : ∀ {s t s'}, bind s t = some s' → Binds s t s')
    (returned : spawn s priority isUser isThread bind noTask noProc = .ok (t, s')) :
    MildBut {s.taskCount} s s' ∧ (s'.tcb s.taskCount).state = .ready := by
  obtain ⟨-, rfl, bound, bind', rfl⟩ := spawn_ok returned
  obtain ⟨procs, slot, rfl⟩ := binds bind'
  constructor
  · intro u other
    have apart : u ≠ s.taskCount := other
    rw [preemptIfUrgent_tcb]
    simp only [rqPush, setTcb_other _ apart, withFresh, Function.update_of_ne apart]
    exact Mild.refl _
  · rw [preemptIfUrgent_tcb]
    simp [rqPush, withFresh]

/-- What a step of the scheduler can do to a task. -/
inductive Turned (s s' : State) (t : Nat) : Op → Prop where
  | mild {op : Op} : Mild (s.tcb t) (s'.tcb t) → Turned s s' t op
  | lent {op : Op} : (op = .clear t ∨ ∃ prio, op = .donate t prio) → (s'.tcb t).state = (s.tcb t).state →
      Turned s s' t op
  | slept {op : Op} : op = .block ∨ op = .stop → t = s.current → (s'.tcb t).state ≠ .zombie → Turned s s' t op
  | ended (code : Int) : (s'.tcb t).state = .zombie → Turned s s' t (.exitEnd t code)
  | new {op : Op} : t = s.taskCount → (s'.tcb t).state = .ready → Turned s s' t op

theorem exec_turned {op : Op} (done : exec s op = .ok s') (t : Nat) : Turned s s' t op := by
  have mild : ∀ {op s'}, MildBut ∅ s s' → Turned s s' t op := fun mild => .mild (mild t (Set.notMem_empty t))
  have new : ∀ {op s'}, MildBut {s.taskCount} s s' ∧ (s'.tcb s.taskCount).state = .ready → Turned s s' t op := by
    rintro op s' ⟨mild, ready⟩
    by_cases own : t = s.taskCount
    · exact .new own (by rw [own]; exact ready)
    · exact .mild (mild t own)
  have lent : ∀ {op s' u}, MildBut {u} s s' ∧ (s'.tcb u).state = (s.tcb u).state →
      (op = .clear u ∨ ∃ prio, op = .donate u prio) → Turned s s' t op := by
    rintro op s' u ⟨mild, same⟩ which
    by_cases own : t = u
    · subst own
      exact .lent which same
    · exact .mild (mild t own)
  cases op with
  | createTask priority =>
    obtain ⟨u, made⟩ := created_ok done
    exact new (mild_spawn binds_new made)
  | createUser priority =>
    obtain ⟨u, made⟩ := created_ok done
    exact new (mild_spawn binds_new made)
  | forkUser priority =>
    obtain ⟨u, made⟩ := created_ok done
    exact new (mild_spawn binds_new made)
  | cloneThread priority =>
    obtain ⟨u, made⟩ := created_ok done
    exact new (mild_spawn binds_shared made)
  | schedule => exact mild (mild_schedule (orSpin_ok done))
  | exception =>
    have switched := orSpin_ok done
    unfold scheduleFromException at switched
    split at switched
    · have same : MildBut ∅ s { s with needResched := false } := mild_same rfl
      exact mild (same.trans (mild_schedule switched))
    · cases switched
      exact .mild (Mild.refl _)
  | yield =>
    have given : MildBut ∅ s (s.setTcb s.current fun t => { t with ticksLeft := 0 }) := mild_setTcb ⟨id, id, rfl, rfl⟩
    exact mild (given.trans (mild_schedule (orSpin_ok done)))
  | block =>
    by_cases own : t = s.current
    · -- The switch finds the task blocked, and ends nobody.
      subst own
      have switched : MildBut ∅ (s.setTcb s.current fun t => { t with state := .blocked }) s' :=
        mild_schedule (orSpin_ok done)
      refine .slept (.inl rfl) rfl ((switched _ (Set.notMem_empty _)).alive ?_)
      rw [setTcb_self]
      simp
    · exact .mild (mild_block (orSpin_ok done) t own)
  | unblock u =>
    cases done
    exact mild (mild_unblock u)
  | stop =>
    cases done
    by_cases own : t = s.current
    · subst own
      exact .slept (.inr rfl) rfl (by simp [signalStopCurrent])
    · exact .mild (mild_others t own)
  | «continue» u =>
    cases done
    exact mild (mild_continue u)
  | kill u =>
    cases done
    exact mild (mild_kill u)
  | tick jiffies timerExpired =>
    cases done
    exact mild (mild_tick jiffies timerExpired)
  | donate u prio =>
    cases done
    exact lent (mild_donate u prio) (.inr ⟨prio, rfl⟩)
  | clear u =>
    cases done
    exact lent (mild_clear u) (.inl rfl)
  | exitBegin u code =>
    cases done
    exact mild (mild_exitBegin u code)
  | exitEnd u code =>
    cases done
    by_cases own : t = u
    · subst own
      exact .ended code (mild_exitEnd t code).2
    · exact .mild ((mild_exitEnd u code).1 t own)

theorem exec_awake {op : Op} (done : exec s op = .ok s') (awake : (s.tcb t).state ≠ .blocked)
    (other : op = .block ∨ op = .stop → t ≠ s.current) : (s'.tcb t).state ≠ .blocked := by
  cases exec_turned done t with
  | mild mild => exact mild.awake awake
  | lent which same =>
    rw [same]
    exact awake
  | slept which own => exact absurd own (other which)
  | ended code ended =>
    rw [ended]
    simp
  | new own ready =>
    rw [ready]
    simp

theorem exec_alive {op : Op} (done : exec s op = .ok s') (alive : (s.tcb t).state ≠ .zombie)
    (other : ∀ code, op ≠ .exitEnd t code) : (s'.tcb t).state ≠ .zombie := by
  cases exec_turned done t with
  | mild mild => exact mild.alive alive
  | lent which same =>
    rw [same]
    exact alive
  | slept which own alive => exact alive
  | ended code ended => exact absurd rfl (other code)
  | new own ready =>
    rw [ready]
    simp

theorem Fixed.refl (s : State) : Fixed s s := ⟨rfl, rfl, fun _ => rfl⟩

theorem Fixed.trans (first : Fixed s s') (second : Fixed s' s'') : Fixed s s'' :=
  ⟨second.taskCount.trans first.taskCount, second.nextPid.trans first.nextPid,
    fun t => (second.pid t).trans (first.pid t)⟩

theorem fixed_setTcb (pid : ∀ tcb, (f tcb).pid = tcb.pid) : Fixed s (s.setTcb t f) := by
  refine ⟨rfl, rfl, fun u => ?_⟩
  by_cases own : u = t
  · rw [own, setTcb_self, pid]
  · rw [setTcb_other _ own]

theorem fixed_remove {p : UInt8} : Fixed s (rqRemove s t p) := by
  unfold rqRemove
  split <;> exact ⟨rfl, rfl, fun _ => rfl⟩

theorem fixed_preempt : Fixed s (preemptIfUrgent s t) := by
  unfold preemptIfUrgent
  split <;> exact ⟨rfl, rfl, fun _ => rfl⟩

theorem fixed_requeue {p : UInt8} : Fixed s (requeue s t p) := by
  unfold requeue
  split
  · have removed : Fixed s (rqRemove s t p) := fixed_remove
    exact removed.trans ⟨rfl, rfl, fun _ => rfl⟩
  · exact Fixed.refl s

theorem fixed_pickNext {prev fuel : Nat} {found : Option Nat} (picked : pickNext prev fuel s = some (found, s')) :
    Fixed s s' := by
  induction fuel generalizing s with
  | zero => cases picked
  | succ fuel ih =>
    rw [pickNext] at picked
    split at picked
    · cases picked
      exact Fixed.refl _
    · rename_i p _
      have popped : Fixed s (rqPop s (UInt8.ofNat p)).2 := by
        unfold rqPop
        split <;> exact ⟨rfl, rfl, fun _ => rfl⟩
      split at picked
      · rename_i pop
        rw [pop] at popped
        exact popped.trans (ih picked)
      · rename_i pop
        rw [pop] at popped
        split at picked
        · exact popped.trans (ih picked)
        · cases picked
          exact popped

theorem refillTicks_pid (tcb : Tcb) : (refillTicks tcb).pid = tcb.pid := by
  unfold refillTicks
  split <;> rfl

theorem fixed_dispatch (next : Nat) : Fixed s (dispatch s next) := by
  have requeued : Fixed s (requeuePrev s) := by
    unfold requeuePrev
    split
    · have turned : Fixed s (s.setTcb s.current fun t => { t with state := .ready }) := fixed_setTcb fun _ => rfl
      exact turned.trans ⟨rfl, rfl, fun _ => rfl⟩
    · exact Fixed.refl s
  have filled : Fixed s ((requeuePrev s).setTcb s.current refillTicks) :=
    requeued.trans (fixed_setTcb refillTicks_pid)
  have turned := filled.trans (fixed_setTcb (t := next) (f := fun t => refillTicks { t with state := .running })
    fun tcb => refillTicks_pid { tcb with state := .running })
  exact ⟨turned.taskCount, turned.nextPid, turned.pid⟩

theorem fixed_schedule (switched : scheduleLocked s = some s') : Fixed s s' := by
  unfold scheduleLocked at switched
  split at switched
  · cases switched
  · rename_i picked
    cases switched
    exact fixed_pickNext picked
  · rename_i picked
    cases switched
    exact (fixed_pickNext picked).trans (fixed_dispatch _)

theorem fixed_block (blocked : schedBlock s = some s') : Fixed s s' := by
  have marked : Fixed s (s.setTcb s.current fun t => { t with state := .blocked }) := fixed_setTcb fun _ => rfl
  exact marked.trans (fixed_schedule blocked)

theorem fixed_unblock (t : Nat) : Fixed s (schedUnblock s t) := by
  unfold schedUnblock
  split
  · have turned : Fixed s (s.setTcb t fun tcb => { tcb with state := .ready, ticksLeft := schedTickQuantum }) :=
      fixed_setTcb fun _ => rfl
    have pushed : Fixed s (rqPush (s.setTcb t fun tcb =>
        { tcb with state := .ready, ticksLeft := schedTickQuantum }) t) := turned.trans ⟨rfl, rfl, fun _ => rfl⟩
    exact pushed.trans fixed_preempt
  · exact Fixed.refl s

theorem fixed_donate (t : Nat) (prio : UInt8) : Fixed s (schedTaskDonatePriority s t prio) := by
  have lent : Fixed s (s.setTcb t fun tcb =>
      if tcb.donatedPriority = 0xFF ∨ prio < tcb.donatedPriority then { tcb with donatedPriority := prio } else tcb) :=
    fixed_setTcb fun tcb => by split <;> rfl
  unfold schedTaskDonatePriority
  dsimp only
  split
  · exact lent.trans (fixed_requeue.trans fixed_preempt)
  · exact lent.trans fixed_requeue

theorem fixed_clear (t : Nat) : Fixed s (schedTaskClearDonation s t) := by
  have taken : Fixed s (s.setTcb t fun tcb => { tcb with donatedPriority := 0xFF }) := fixed_setTcb fun _ => rfl
  have moved : Fixed s (requeue (s.setTcb t fun tcb => { tcb with donatedPriority := 0xFF }) t (s.effPrio t)) :=
    taken.trans fixed_requeue
  unfold schedTaskClearDonation
  dsimp only
  split
  · split
    · split
      · exact moved.trans ⟨rfl, rfl, fun _ => rfl⟩
      · exact moved
    · exact moved
  · exact moved.trans fixed_preempt

theorem fixed_procRelease (slot : Nat) (code : Int) : Fixed s (procRelease s slot code) := by
  unfold procRelease
  split
  · exact Fixed.refl s
  · dsimp only
    split
    · exact ⟨rfl, rfl, fun _ => rfl⟩
    · split
      · rename_i leader _
        refine ⟨rfl, rfl, fun u => ?_⟩
        by_cases own : u = leader
        · rw [own, setTcb_self]
          rfl
        · rw [setTcb_other _ own]
          rfl
      · exact ⟨rfl, rfl, fun _ => rfl⟩

theorem fixed_exitEnd (t : Nat) (code : Int) : Fixed s (finishExitEnd s t code) := by
  have marked : Fixed s (s.setTcb t fun tcb => { tcb with stopped := false, stopReported := false }) :=
    fixed_setTcb fun _ => rfl
  let started := s.setTcb t fun tcb => { tcb with stopped := false, stopReported := false }
  let released := procRelease started (started.tcb t).procSlot code
  have left : Fixed started released := fixed_procRelease _ code
  have ended : Fixed released (released.setTcb t fun tcb => { tcb with state := .zombie }) := fixed_setTcb fun _ => rfl
  exact marked.trans (left.trans ended)

theorem Named.fixed (named : Named s) (fixed : Fixed s s') : Named s' := by
  refine ⟨fixed.taskCount ▸ named.room, ?_, fun t => ?_⟩
  · rw [fixed.nextPid, fixed.taskCount]
    exact named.next
  · rw [fixed.pid, fixed.taskCount]
    exact named.pid t

theorem Named.spawn (named : Named s) {priority : UInt8} {isUser isThread : Bool} {bind : State → Nat → Option State}
    {noTask noProc : String} (binds : ∀ {s t s'}, bind s t = some s' → Binds s t s')
    (returned : spawn s priority isUser isThread bind noTask noProc = .ok (t, s')) :
    Named s' ∧ s'.taskCount = s.taskCount + 1 := by
  obtain ⟨room, rfl, bound, bind', rfl⟩ := spawn_ok returned
  obtain ⟨procs, slot, rfl⟩ := binds bind'
  have started : Named (withFresh s priority isUser isThread) := by
    refine ⟨room, ?_, fun u => ?_⟩
    · have small : s.taskCount + 1 < 2 ^ 32 := by
        unfold schedMaxTasks at room
        omega
      show (s.nextPid + 1) % 2 ^ 32 = s.taskCount + 1
      rw [named.next, Nat.mod_eq_of_lt small]
    · by_cases own : u = s.taskCount
      · subst own
        simp [withFresh, named.next]
      · have same : u < s.taskCount + 1 ↔ u < s.taskCount := by omega
        simp only [withFresh, Function.update_of_ne own, named.pid u, same]
  let bound := State.setTcb { withFresh s priority isUser isThread with procs := procs } s.taskCount
    fun tcb => { tcb with procSlot := slot }
  have same : Fixed (withFresh s priority isUser isThread) { withFresh s priority isUser isThread with procs := procs } :=
    ⟨rfl, rfl, fun _ => rfl⟩
  have slotted : Fixed { withFresh s priority isUser isThread with procs := procs } bound := fixed_setTcb fun _ => rfl
  have pushed : Fixed bound (rqPush bound s.taskCount) := ⟨rfl, rfl, fun _ => rfl⟩
  have fixed := same.trans (slotted.trans (pushed.trans (fixed_preempt (t := s.taskCount))))
  exact ⟨started.fixed fixed, fixed.taskCount⟩

theorem Named.exec {op : Op} (named : Named s) (done : exec s op = .ok s') :
    Named s' ∧ s.taskCount ≤ s'.taskCount := by
  have fixed : ∀ {s'}, Fixed s s' → Named s' ∧ s.taskCount ≤ s'.taskCount :=
    fun fixed => ⟨named.fixed fixed, fixed.taskCount.ge⟩
  have new : ∀ {s'}, Named s' ∧ s'.taskCount = s.taskCount + 1 → Named s' ∧ s.taskCount ≤ s'.taskCount :=
    fun more => ⟨more.1, by omega⟩
  cases op with
  | createTask priority =>
    obtain ⟨u, made⟩ := created_ok done
    exact new (named.spawn binds_new made)
  | createUser priority =>
    obtain ⟨u, made⟩ := created_ok done
    exact new (named.spawn binds_new made)
  | forkUser priority =>
    obtain ⟨u, made⟩ := created_ok done
    exact new (named.spawn binds_new made)
  | cloneThread priority =>
    obtain ⟨u, made⟩ := created_ok done
    exact new (named.spawn binds_shared made)
  | schedule => exact fixed (fixed_schedule (orSpin_ok done))
  | exception =>
    have switched := orSpin_ok done
    unfold scheduleFromException at switched
    split at switched
    · have same : Fixed s { s with needResched := false } := ⟨rfl, rfl, fun _ => rfl⟩
      exact fixed (same.trans (fixed_schedule switched))
    · cases switched
      exact fixed (Fixed.refl s)
  | yield =>
    have given : Fixed s (s.setTcb s.current fun t => { t with ticksLeft := 0 }) := fixed_setTcb fun _ => rfl
    exact fixed (given.trans (fixed_schedule (orSpin_ok done)))
  | block => exact fixed (fixed_block (orSpin_ok done))
  | unblock u =>
    cases done
    exact fixed (fixed_unblock u)
  | stop =>
    cases done
    exact fixed (fixed_setTcb fun _ => rfl)
  | «continue» u =>
    cases done
    refine fixed ?_
    have marked : Fixed s (s.setTcb u fun tcb => { tcb with stopped := false, stopReported := false }) :=
      fixed_setTcb fun _ => rfl
    unfold signalContinue
    split
    · exact Fixed.refl s
    · exact marked.trans (fixed_unblock u)
  | kill u =>
    cases done
    refine fixed ?_
    have marked : Fixed s (s.setTcb u fun tcb => { tcb with stopped := false }) := fixed_setTcb fun _ => rfl
    unfold signalKill
    split
    · exact marked.trans (fixed_unblock u)
    · exact Fixed.refl s
  | tick jiffies timerExpired =>
    cases done
    refine fixed ?_
    have counted : Fixed s (s.setTcb s.current fun t =>
        { t with ticksLeft := if t.ticksLeft > 0 then t.ticksLeft - 1 else 0 }) := fixed_setTcb fun _ => rfl
    unfold schedTick
    dsimp only
    split
    · exact counted.trans ⟨rfl, rfl, fun _ => rfl⟩
    · exact counted
  | donate u prio =>
    cases done
    exact fixed (fixed_donate u prio)
  | clear u =>
    cases done
    exact fixed (fixed_clear u)
  | exitBegin u code =>
    cases done
    refine fixed ?_
    have marked : Fixed s (s.setTcb u fun tcb => { tcb with exitCode := code }) := fixed_setTcb fun _ => rfl
    unfold finishExitBegin
    dsimp only
    split
    · exact marked.trans fixed_remove
    · exact marked
  | exitEnd u code =>
    cases done
    exact fixed (fixed_exitEnd u code)

end

theorem named_schedInit : Named schedInit := by
  refine ⟨by decide, rfl, fun t => ?_⟩
  match t with
  | 0 => rfl
  | 1 => rfl
  | t + 2 => simp [schedInit, rqPush, emptyState]

end Enlil.Sched
