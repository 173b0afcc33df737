import Enlil.Sched.QueueRuns

/-! When a switch leaves the most urgent task running. -/

namespace Enlil.Sched

/-- The current task is at least as urgent as every task that is ready or running. -/
def Urgent (s : State) : Prop :=
  ∀ t < s.taskCount, (s.tcb t).state = .ready ∨ (s.tcb t).state = .running → s.effPrio s.current ≤ s.effPrio t

/-- Giving up the processor does not hand it to a less urgent task. -/
def Fair (s : State) : Prop :=
  (s.tcb s.current).state ≠ .running ∨ (∀ t < s.taskCount, (s.tcb t).state ≠ .ready) ∨
    ∃ t < s.taskCount, (s.tcb t).state = .ready ∧ s.effPrio t ≤ s.effPrio s.current

section

variable {s s' : State} {out : Set Nat} {next : Nat} {f : Tcb → Tcb}

theorem takeFirst_urgent (queues : Queues ∅ s) (taken : takeFirst s = some (next, s')) {t : Nat}
    (inside : t < s.taskCount) (ready : (s.tcb t).state = .ready) : s.effPrio next ≤ s.effPrio t := by
  obtain ⟨p, rest, first, -, urgent⟩ := takeFirst_some queues taken
  have prio : s.effPrio next = p := (queues.member p next (by simp [first])).2.2.2
  have linked := queues.ready t inside (Set.notMem_empty t) ready
  rw [prio]
  by_contra below
  rw [urgent _ (UInt8.not_le.mp below)] at linked
  cases linked

theorem choose_taken {q : State} (behind : ¬ AtFront s) (chose : choose s s.current = (some next, q)) :
    takeFirst s = some (next, q) := by
  unfold choose at chose
  cases taken : takeFirst s with
  | none => simp [taken] at chose
  | some first =>
    obtain ⟨t, s'⟩ := first
    have other : t ≠ s.current := fun same => behind (by simp [AtFront, taken, same])
    simpa [taken, other] using chose

theorem switch_urgent_iff (queues : Queues ∅ s) (sane : Sane s) (behind : ¬ AtFront s)
    (state : (f (s.tcb s.current)).state = (s.tcb s.current).state)
    (prio : effPrioOf (f (s.tcb s.current)) = effPrioOf (s.tcb s.current)) :
    ∃ s', scheduleLocked (s.setTcb s.current f) = some s' ∧ (Urgent s' ↔ Fair s) := by
  rw [scheduleLocked_eq queues]
  refine ⟨_, rfl, ?_⟩
  rcases choose_behind queues behind with ⟨chose, empty⟩ | ⟨next, q, chose, chosen⟩
  · -- Nothing is ready, so at most the current task runs.
    rw [chose]
    have none : ∀ t < s.taskCount, (s.tcb t).state ≠ .ready := by
      intro t inside ready
      have linked := queues.ready t inside (Set.notMem_empty t) ready
      simp [takeFirst_none queues empty] at linked
    refine iff_of_true ?_ (.inr (.inl none))
    intro t inside active
    rw [setTcb_state state] at active
    have same := sane.running t inside (active.resolve_left (none t inside))
    simp [same]
  · rw [chose]
    dsimp only
    have taken := choose_taken behind chose
    obtain ⟨other, inside, ready, -, runQueue, readyBitmap, rfl⟩ := chosen
    have prios : ∀ t, (dispatch (State.setTcb { s with runQueue := runQueue, readyBitmap := readyBitmap } s.current f)
        next).effPrio t = s.effPrio t := by
      intro t
      rw [dispatch_effPrio]
      exact setTcb_effPrio prio t
    have states : ∀ t, ((dispatch (State.setTcb { s with runQueue := runQueue, readyBitmap := readyBitmap } s.current f)
        next).tcb t).state = if t = next then .running
          else if t = s.current ∧ (s.tcb t).state = .running then .ready else (s.tcb t).state := by
      intro t
      rw [dispatch_state]
      have same : ((State.setTcb { s with runQueue := runQueue, readyBitmap := readyBitmap } s.current f).tcb t).state
          = (s.tcb t).state := setTcb_state state t
      rw [same]
      rfl
    constructor
    · -- The previous task is ready now if it was running, and not more urgent than the next one.
      intro urgent
      by_cases running : (s.tcb s.current).state = .running
      · have bound := urgent s.current (by rw [dispatch_taskCount]; exact sane.inside) (by rw [states, if_neg other]; simp [running])
        rw [dispatch_current, prios, prios] at bound
        exact .inr (.inr ⟨next, inside, ready, bound⟩)
      · exact .inl running
    · intro fair t small active
      rw [dispatch_current, prios, prios]
      rw [dispatch_taskCount] at small
      rw [states] at active
      by_cases first : t = next
      · rw [first]
        exact UInt8.le_refl _
      · rw [if_neg first] at active
        by_cases prev : t = s.current ∧ (s.tcb t).state = .running
        · -- Some ready task is at least as urgent as the previous one, and the next one as that.
          obtain ⟨rfl, running⟩ := prev
          rcases fair with idle | none | ⟨t, inside', ready', bound⟩
          · exact absurd running idle
          · exact absurd ready (none next inside)
          · exact UInt8.le_trans (takeFirst_urgent queues taken inside' ready') bound
        · rw [if_neg prev] at active
          have waiting : (s.tcb t).state = .ready := by
            rcases active with ready | running
            · exact ready
            · exact absurd ⟨sane.running t small running, running⟩ prev
          exact takeFirst_urgent queues taken small waiting

/-- The calls that switch. -/
def Op.switches (s : State) : Op → Prop
  | .schedule | .yield => True
  | .exception => s.needResched = true
  | _ => False

/--
In a run of safe sections, a call that switches returns, and leaves the most urgent task running exactly when it
is made by a task that does not run any more, or there is nothing to switch to, or something at least as urgent.
-/
theorem run_switch_urgent_iff (run : Run exec (fun s op => op.Valid s ∧ op.Safe s) schedInit s) {op : Op}
    (switches : op.switches s) (safe : op.Safe s) : ∃ s', exec s op = .ok s' ∧ (Urgent s' ↔ Fair s) := by
  obtain ⟨queues, sane⟩ := run_intact run
  cases op with
  | schedule =>
    obtain ⟨s', switched, exact'⟩ := switch_urgent_iff (f := id) queues sane safe rfl rfl
    rw [setTcb_id] at switched
    exact ⟨s', by simp [exec, schedule, switched, orSpin], exact'⟩
  | yield =>
    obtain ⟨s', switched, exact'⟩ :=
      switch_urgent_iff (f := fun t => { t with ticksLeft := 0 }) queues sane safe rfl rfl
    exact ⟨s', by simp [exec, schedYield, switched, orSpin], exact'⟩
  | exception =>
    have asked : s.needResched = true := switches
    have behind : ¬ AtFront { s with needResched := false } := by
      rw [atFront_resched]
      exact safe asked
    obtain ⟨s', switched, exact'⟩ := switch_urgent_iff (s := { s with needResched := false }) (f := id)
      ⟨queues.bit, queues.once, queues.ready, queues.member⟩ ⟨sane.inside, sane.running⟩ behind rfl rfl
    rw [setTcb_id] at switched
    exact ⟨s', by simp [exec, scheduleFromException, asked, switched, orSpin], exact'⟩
  | _ => cases switches

end

/-- The idle task runs, a user task has just been created, and the timer asks for a switch. -/
def freshUser : List Op :=
  [.block, .createUser 100]

theorem switches_seen :
    (runList exec (fun s op => op.Valid s ∧ op.Safe s) schedInit freshUser).any
      (fun s => s.needResched = true ∧ ¬ AtFront s ∧ s.taskCount = 3 ∧ (s.tcb 2).state = .ready ∧
        s.effPrio 2 ≤ s.effPrio s.current) = true ∧
    (runList exec (fun s op => op.Valid s) schedInit (List.replicate 10 (.tick 0 false))).any
      (fun s => s.needResched && (exec s .exception).toOption.any fun s' =>
        s'.taskCount = 2 ∧ s'.current = 1 ∧ (s'.tcb 0).state = .ready ∧ s'.effPrio 0 < s'.effPrio 1) = true := by
  decide +kernel

theorem run_switch_urgent_iff_freshUser : ∃ s, Run exec (fun s op => op.Valid s ∧ op.Safe s) schedInit s ∧
    Op.switches s .exception ∧ Op.Safe s .exception ∧ Fair s ∧
      ∃ s', exec s .exception = .ok s' ∧ (Urgent s' ↔ Fair s) := by
  obtain ⟨s, run, seen⟩ := runList_any switches_seen.1
  obtain ⟨asked, behind, count, ready, bound⟩ := of_decide_eq_true seen
  have fair : Fair s := .inr (.inr ⟨2, by omega, ready, bound⟩)
  exact ⟨s, run, asked, fun _ => behind, fair, run_switch_urgent_iff run asked fun _ => behind⟩

/-- The most urgent task hands the processor to the idle task when its time slice ends. -/
theorem idle_runs_before_kernel :
    ¬ ∀ s, Run exec (fun s op => op.Valid s) schedInit s → ∀ op, Op.switches s op →
      ∀ s', exec s op = .ok s' → Urgent s' := by
  intro always
  obtain ⟨s, run, seen⟩ := runList_any switches_seen.2
  obtain ⟨asked, after⟩ := Bool.and_eq_true_iff.mp seen
  cases returned : exec s .exception with
  | error _ =>
    rw [returned] at after
    cases after
  | ok s' =>
    rw [returned] at after
    obtain ⟨count, current, ready, urgent⟩ := of_decide_eq_true after
    have bound := always s run .exception asked s' returned 0 (by omega) (.inl ready)
    rw [current] at bound
    exact UInt8.not_le.mpr urgent bound

end Enlil.Sched
