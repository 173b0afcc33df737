import Enlil.Sched.ProcessCounts

/-! The history of a run: how processes ended and which of them were waited for. -/

namespace Enlil.Sched

/-- What happened to the process with a pid. -/
inductive Event where
  | exit (pid : Nat) (code : Int)
  | exitGroup (pid : Nat) (code : Int)
  | reaped (pid status : Nat)
  | stopped (pid : Nat)
  deriving DecidableEq

def Event.pid : Event → Nat
  | .exit pid _ | .exitGroup pid _ | .reaped pid _ | .stopped pid => pid

/-- The code with which the whole process was ended. -/
def Event.groupCode (pid : Nat) : Event → Option Int
  | .exitGroup pid' code => if pid' = pid then some code else none
  | _ => none

/-- The code with which a task of the process ended by itself. -/
def Event.taskCode (pid : Nat) : Event → Option Int
  | .exit pid' code => if pid' = pid then some code else none
  | _ => none

/-- Whether a pid was returned to a task that waits. -/
def Event.returns (pid : Nat) : Event → Prop
  | .reaped pid' _ | .stopped pid' => pid' = pid
  | _ => False

/-- The last code with which a whole process was ended. -/
def groupCode (log : List Event) (pid : Nat) : Option Int := (log.filterMap (Event.groupCode pid)).getLast?

/-- The code a process ends with: that of the whole process if there is one, else that of its last task. -/
def finalCode (log : List Event) (pid : Nat) : Option Int :=
  (groupCode log pid).or (log.filterMap (Event.taskCode pid)).getLast?

/-- What was reported about a process is how it ended, and nothing is reported about it later. -/
def Honest (log : List Event) : Prop :=
  ∀ before pid status after, log = before ++ .reaped pid status :: after →
    (∃ code, finalCode before pid = some code ∧ status = exitStatus code) ∧ ∀ event ∈ after, ¬ event.returns pid

/-- The state of the processes is what their history says. -/
structure Logged (s : State) (log : List Event) : Prop where
  known : ∀ event ∈ log, event.pid < s.taskCount
  group : ∀ slot < schedMaxTasks, (s.procs slot).inUse = true →
    groupCode log (s.procs slot).tgid =
      if (s.procs slot).groupExiting then some (s.procs slot).groupExitCode else none
  code : ∀ slot < schedMaxTasks, (s.procs slot).inUse = true → (s.procs slot).waitable = true →
    finalCode log (s.procs slot).tgid = some (s.procs slot).waitExitCode ∧
      ((s.procs slot).tgid ≠ 0 → (s.tcb (s.procs slot).tgid).exitCode = (s.procs slot).waitExitCode)
  root : ∀ slot < schedMaxTasks, (s.procs slot).inUse = true → (s.procs slot).tgid = 0 →
    (s.procs slot).parentPid = 0
  gone : ∀ slot < schedMaxTasks, (s.procs slot).inUse = true → ∀ status, .reaped (s.procs slot).tgid status ∉ log
  dead : ∀ pid status, .reaped pid status ∈ log → (s.tcb pid).state = .zombie
  honest : Honest log

section

variable {s s' : State} {log : List Event} {t slot : Nat} {f : Tcb → Tcb} {event : Event} {pid : Nat}

theorem groupCode_append : groupCode (log ++ [event]) pid = (event.groupCode pid).or (groupCode log pid) := by
  cases code : event.groupCode pid <;> simp [groupCode, code]

theorem finalCode_append : finalCode (log ++ [event]) pid =
    (event.groupCode pid).or ((groupCode log pid).or ((event.taskCode pid).or
      (log.filterMap (Event.taskCode pid)).getLast?)) := by
  rw [finalCode, groupCode_append]
  cases group : event.groupCode pid <;> cases task : event.taskCode pid <;> simp [task]

theorem codes_other (event : Event) (other : event.pid ≠ pid) : event.groupCode pid = none ∧ event.taskCode pid = none := by
  cases event <;> simp_all [Event.pid, Event.groupCode, Event.taskCode]

theorem finalCode_other (event : Event) (other : event.pid ≠ pid) : finalCode (log ++ [event]) pid = finalCode log pid := by
  rw [finalCode_append, (codes_other event other).1, (codes_other event other).2]
  simp [finalCode]

theorem groupCode_unknown (unknown : ∀ event ∈ log, event.pid ≠ pid) : groupCode log pid = none := by
  have none : log.filterMap (Event.groupCode pid) = [] :=
    List.filterMap_eq_nil_iff.mpr fun event member => (codes_other event (unknown event member)).1
  simp [groupCode, none]

theorem Honest.append (honest : Honest log) (fresh : ∀ pid status, .reaped pid status ∈ log → ¬ event.returns pid)
    (right : ∀ pid status, event = .reaped pid status → ∃ code, finalCode log pid = some code ∧ status = exitStatus code) :
    Honest (log ++ [event]) := by
  intro before pid status after split
  -- The report is the last event, or one of those before it.
  rcases List.append_eq_append_iff.mp split with ⟨middle, first, second⟩ | ⟨middle, first, second⟩
  · cases middle with
    | nil =>
      simp only [List.append_nil, List.nil_append, List.cons.injEq] at first second
      obtain ⟨same, none⟩ := second
      subst first none
      exact ⟨right pid status same, fun event member => by cases member⟩
    | cons head rest => simp at second
  · cases middle with
    | nil =>
      simp only [List.append_nil, List.nil_append, List.cons.injEq] at first second
      obtain ⟨same, none⟩ := second
      subst first none
      exact ⟨right pid status same.symm, fun event member => by cases member⟩
    | cons head rest =>
      simp only [List.cons_append, List.cons.injEq] at second
      obtain ⟨rfl, rfl⟩ := second
      obtain ⟨code, later⟩ := honest before pid status rest first
      refine ⟨code, fun event' member => ?_⟩
      rcases List.mem_append.mp member with old | last
      · exact later event' old
      · cases List.mem_singleton.mp last
        exact fresh pid status (by rw [first]; simp)

theorem Honest.quiet (honest : Honest log) (quiet : ∀ pid, ¬ event.returns pid) : Honest (log ++ [event]) := by
  apply honest.append fun pid _ _ => quiet pid
  rintro pid status rfl
  exact absurd rfl (quiet pid)

theorem Logged.sched (logged : Logged s log) (frame : SchedOnly s s') : Logged s' log := by
  refine ⟨fun event member => ?_, ?_, fun slot inside used waits => ?_, ?_, ?_, fun pid status reaped => ?_,
    logged.honest⟩
  · rw [frame.taskCount]
    exact logged.known event member
  · rw [frame.procs]
    exact logged.group
  · rw [frame.procs] at used waits ⊢
    rw [(frame.task _).exitCode]
    exact logged.code slot inside used waits
  · rw [frame.procs]
    exact logged.root
  · rw [frame.procs]
    exact logged.gone
  · exact (frame.task pid).zombie.mpr (logged.dead pid status reaped)

theorem Counted.not_waitable (counted : Counted s) (inside : t < s.taskCount) (alive : (s.tcb t).state ≠ .zombie) :
    (s.procs (s.tcb t).procSlot).waitable = false := by
  obtain ⟨small, used⟩ := counted.held t inside alive
  by_contra waits
  exact counted.refcount_pos inside alive ((counted.waitable _ small used).mp (by simpa using waits))

theorem Counted.leader_ne (counted : Counted s) (inside : t < s.taskCount) (alive : (s.tcb t).state ≠ .zombie)
    (small : slot < schedMaxTasks) (used : (s.procs slot).inUse = true) (waits : (s.procs slot).waitable = true) :
    (s.procs slot).tgid ≠ t := by
  rintro rfl
  have none := counted.not_waitable inside alive
  rw [(counted.leader slot small used).2, waits] at none
  cases none

theorem Logged.change (logged : Logged s log)
    (apart : ∀ slot < schedMaxTasks, (s.procs slot).inUse = true → (s.procs slot).waitable = true →
      (s.procs slot).tgid ≠ t)
    (state : ∀ task, (f task).state = task.state) : Logged (s.setTcb t f) log := by
  refine ⟨logged.known, logged.group, fun slot small used waits => ?_, logged.root, logged.gone,
    fun pid status reaped => ?_, logged.honest⟩
  · rw [setTcb_procs] at used waits ⊢
    rw [setTcb_other f (apart slot small used waits)]
    exact logged.code slot small used waits
  · rw [setTcb_state (state _)]
    exact logged.dead pid status reaped

theorem Counted.tgid_inj (counted : Counted s) {other : Nat} (inside : slot < schedMaxTasks)
    (inside' : other < schedMaxTasks) (used : (s.procs slot).inUse = true) (used' : (s.procs other).inUse = true)
    (same : (s.procs slot).tgid = (s.procs other).tgid) : slot = other := by
  rw [← (counted.leader slot inside used).2, ← (counted.leader other inside' used').2, same]

theorem Logged.note (logged : Logged s log) (counted : Counted s) (inside : t < s.taskCount)
    (alive : (s.tcb t).state ≠ .zombie) (code : Int) :
    Logged s (log ++ [.exit (s.procs (s.tcb t).procSlot).tgid code]) := by
  obtain ⟨small, used⟩ := counted.held t inside alive
  refine ⟨fun event member => ?_, fun slot small' used' => ?_, fun slot small' used' waits => ?_, logged.root,
    fun slot small' used' status member => ?_, fun pid status member => ?_, ?_⟩
  · rcases List.mem_append.mp member with old | last
    · exact logged.known event old
    · cases List.mem_singleton.mp last
      exact (counted.leader _ small used).1
  · rw [groupCode_append]
    exact logged.group slot small' used'
  · -- A process that can be waited for is another one.
    have other : (s.procs (s.tcb t).procSlot).tgid ≠ (s.procs slot).tgid := by
      intro same
      have none := counted.not_waitable inside alive
      rw [counted.tgid_inj small small' used used' same, waits] at none
      cases none
    rw [finalCode_other (.exit _ code) other]
    exact logged.code slot small' used' waits
  · exact logged.gone slot small' used' status (by simpa using member)
  · exact logged.dead pid status (by simpa using member)
  · exact logged.honest.quiet fun pid returns => returns

theorem Logged.groupExit (logged : Logged s log) (counted : Counted s) (inside : t < s.taskCount)
    (alive : (s.tcb t).state ≠ .zombie) (code : Int) :
    Logged (procSetGroupExit s (s.tcb t).procSlot code)
      (log ++ [.exitGroup (s.procs (s.tcb t).procSlot).tgid code]) := by
  obtain ⟨small, used⟩ := counted.held t inside alive
  have guard : ¬ ((s.tcb t).procSlot ≥ schedMaxTasks ∨ (s.procs (s.tcb t).procSlot).inUse = false) := by
    simp [used]
    omega
  rw [procSetGroupExit, if_neg guard]
  have tgids : ∀ slot, ((s.setProc (s.tcb t).procSlot fun proc =>
      { proc with groupExiting := true, groupExitCode := code }).procs slot).tgid = (s.procs slot).tgid ∧
      ((s.setProc (s.tcb t).procSlot fun proc =>
      { proc with groupExiting := true, groupExitCode := code }).procs slot).inUse = (s.procs slot).inUse ∧
      ((s.setProc (s.tcb t).procSlot fun proc =>
      { proc with groupExiting := true, groupExitCode := code }).procs slot).parentPid = (s.procs slot).parentPid := by
    intro slot
    by_cases own : slot = (s.tcb t).procSlot
    · subst own
      simp
    · simp [own]
  refine ⟨fun event member => ?_, fun slot small' used' => ?_, fun slot small' used' waits => ?_,
    fun slot small' used' zero => ?_, fun slot small' used' status member => ?_, fun pid status member => ?_, ?_⟩
  · rcases List.mem_append.mp member with old | last
    · exact logged.known event old
    · cases List.mem_singleton.mp last
      exact (counted.leader _ small used).1
  · rw [(tgids slot).2.1] at used'
    rw [(tgids slot).1, groupCode_append]
    by_cases own : slot = (s.tcb t).procSlot
    · subst own
      simp [Event.groupCode]
    · have other : (s.procs (s.tcb t).procSlot).tgid ≠ (s.procs slot).tgid := fun same =>
        own (counted.tgid_inj small small' used used' same).symm
      rw [(codes_other (.exitGroup _ code) other).1, setProc_other _ own]
      exact logged.group slot small' used'
  · rw [(tgids slot).2.1] at used'
    have own : slot ≠ (s.tcb t).procSlot := by
      rintro rfl
      have none := counted.not_waitable inside alive
      have some : (s.procs (s.tcb t).procSlot).waitable = true := by simpa using waits
      rw [some] at none
      cases none
    have other : (s.procs (s.tcb t).procSlot).tgid ≠ (s.procs slot).tgid := fun same =>
      own (counted.tgid_inj small small' used used' same).symm
    rw [setProc_other _ own] at waits ⊢
    rw [finalCode_other (.exitGroup _ code) other]
    exact logged.code slot small' used' waits
  · rw [(tgids slot).2.1] at used'
    rw [(tgids slot).1] at zero
    rw [(tgids slot).2.2]
    exact logged.root slot small' used' zero
  · rw [(tgids slot).2.1] at used'
    rw [(tgids slot).1] at member
    exact logged.gone slot small' used' status (by simpa using member)
  · exact logged.dead pid status (by simpa using member)
  · exact logged.honest.quiet fun pid returns => returns

/-- Two states of a process that differ in how far it has ended only. -/
structure SameProc (before after : Proc) : Prop where
  inUse : after.inUse = before.inUse
  tgid : after.tgid = before.tgid
  parentPid : after.parentPid = before.parentPid
  groupExiting : after.groupExiting = before.groupExiting
  groupExitCode : after.groupExitCode = before.groupExitCode

theorem Logged.settle (logged : Logged s log) (grown : s.taskCount ≤ s'.taskCount)
    (proc : ∀ slot, SameProc (s.procs slot) (s'.procs slot))
    (dead : ∀ pid < s.taskCount, (s.tcb pid).state = .zombie → (s'.tcb pid).state = .zombie)
    (code : ∀ slot < schedMaxTasks, (s.procs slot).inUse = true → (s'.procs slot).waitable = true →
      finalCode log (s.procs slot).tgid = some (s'.procs slot).waitExitCode ∧
        ((s.procs slot).tgid ≠ 0 → (s'.tcb (s.procs slot).tgid).exitCode = (s'.procs slot).waitExitCode)) :
    Logged s' log := by
  refine ⟨fun event member => lt_of_lt_of_le (logged.known event member) grown, fun slot small used => ?_,
    fun slot small used waits => ?_, fun slot small used zero => ?_, fun slot small used => ?_,
    fun pid status member => ?_, logged.honest⟩
  · rw [(proc slot).inUse] at used
    rw [(proc slot).tgid, (proc slot).groupExiting, (proc slot).groupExitCode]
    exact logged.group slot small used
  · rw [(proc slot).inUse] at used
    rw [(proc slot).tgid]
    exact code slot small used waits
  · rw [(proc slot).inUse] at used
    rw [(proc slot).tgid] at zero
    rw [(proc slot).parentPid]
    exact logged.root slot small used zero
  · rw [(proc slot).inUse] at used
    rw [(proc slot).tgid]
    exact logged.gone slot small used
  · exact dead pid (logged.known _ member) (logged.dead pid status member)

theorem Logged.endTask (logged : Logged s log) {g : Proc → Proc} (same : SameProc (s.procs slot) (g (s.procs slot)))
    (code : (g (s.procs slot)).waitable = true →
      finalCode log (s.procs slot).tgid = some (g (s.procs slot)).waitExitCode ∧
        ((s.procs slot).tgid ≠ 0 → (s.tcb (s.procs slot).tgid).exitCode = (g (s.procs slot)).waitExitCode)) :
    Logged ((s.setProc slot g).setTcb t fun tcb => { tcb with state := .zombie }) log := by
  have codes : ∀ pid, (((s.setProc slot g).setTcb t fun tcb => { tcb with state := .zombie }).tcb pid).exitCode =
      (s.tcb pid).exitCode := by
    intro pid
    by_cases own : pid = t
    · simp [own]
    · simp [own]
  refine logged.settle (Nat.le_refl _) (fun other => ?_) (fun pid _ dead => ?_) fun other small used waits => ?_
  · by_cases own : other = slot
    · subst own
      simpa using same
    · simpa [own] using ⟨rfl, rfl, rfl, rfl, rfl⟩
  · by_cases own : pid = t
    · simp [own]
    · simpa [own] using dead
  · rw [codes]
    rw [setTcb_procs] at waits ⊢
    by_cases own : other = slot
    · subst own
      rw [setProc_self] at waits ⊢
      exact code waits
    · rw [setProc_other g own] at waits ⊢
      exact logged.code other small used waits

theorem Logged.releaseZombie (logged : Logged s log) (counted : Counted s) (inside : t < s.taskCount)
    (alive : (s.tcb t).state ≠ .zombie) {code : Int}
    (noted : finalCode log (s.procs (s.tcb t).procSlot).tgid =
      some ((s.procs (s.tcb t).procSlot).finalCode code)) :
    Logged ((procRelease s (s.tcb t).procSlot code).setTcb t fun tcb => { tcb with state := .zombie }) log := by
  obtain ⟨small, used⟩ := counted.held t inside alive
  have some := counted.refcount_pos inside alive
  have idle := counted.not_waitable inside alive
  by_cases last : (s.procs (s.tcb t).procSlot).refcount = 1
  · rw [procRelease_last counted small used last]
    split
    · rename_i kernel
      apply logged.endTask ⟨rfl, rfl, rfl, rfl, rfl⟩
      exact fun _ => ⟨noted, fun named => absurd kernel named⟩
    · -- The leader has the code before the process can be waited for.
      have coded := logged.change (t := (s.procs (s.tcb t).procSlot).tgid)
        (f := fun tcb => { tcb with exitCode := (s.procs (s.tcb t).procSlot).finalCode code })
        (fun slot small' used' waits same => by
          rw [counted.tgid_inj small' small used' used same, idle] at waits
          cases waits) fun _ => rfl
      have same : SameProc (s.procs (s.tcb t).procSlot) ((s.procs (s.tcb t).procSlot).ended code) :=
        ⟨rfl, rfl, rfl, rfl, rfl⟩
      apply coded.endTask (t := t) (g := fun proc => proc.ended code) same
      intro _
      refine ⟨noted, fun _ => ?_⟩
      simp [Proc.ended]
  · have more : 2 ≤ (s.procs (s.tcb t).procSlot).refcount := by omega
    rw [procRelease_more small used more]
    apply logged.endTask ⟨rfl, rfl, rfl, rfl, rfl⟩
    intro waits
    rw [idle] at waits
    cases waits

/-- A new process has no history. -/
theorem Logged.adoptNew (logged : Logged s log) (counted : Counted s) {priority : UInt8} {isUser isThread : Bool}
    {parentPid pgid : Nat} :
    Logged (adopt s priority isUser isThread slot (Proc.fresh s.nextPid parentPid pgid)) log := by
  have fresh : ∀ event ∈ log, event.pid ≠ s.taskCount := fun event member => (logged.known event member).ne
  refine ⟨fun event member => Nat.lt_succ_of_lt (logged.known event member), fun other small used => ?_,
    fun other small used waits => ?_, fun other small used zero => ?_, fun other small used status member => ?_,
    fun pid status member => ?_, logged.honest⟩
  · rw [adopt_procs] at used ⊢
    split
    · simpa [Proc.fresh, counted.next] using groupCode_unknown fresh
    · rename_i own
      rw [if_neg own] at used
      exact logged.group other small used
  · rw [adopt_procs] at used waits ⊢
    split at waits
    · simp [Proc.fresh] at waits
    · rename_i own
      rw [if_neg own] at used ⊢
      have old := (counted.leader other small used).1
      rw [adopt_tcb (by omega)]
      exact logged.code other small used waits
  · rw [adopt_procs] at used zero ⊢
    split at zero
    · have some : s.taskCount = 0 := by simpa [Proc.fresh, counted.next] using zero
      have inside := counted.bounded.current
      omega
    · rename_i own
      rw [if_neg own] at used ⊢
      exact logged.root other small used zero
  · rw [adopt_procs] at used member
    split at member
    · exact fresh _ member (by simp [Proc.fresh, Event.pid, counted.next])
    · rename_i own
      rw [if_neg own] at used
      exact logged.gone other small used status member
  · have old := logged.known _ member
    rw [adopt_tcb (by simpa [Event.pid] using old.ne)]
    exact logged.dead pid status member

theorem Logged.adoptShared (logged : Logged s log) (counted : Counted s) {priority : UInt8} {isUser isThread : Bool}
    {proc : Proc} (same : SameProc (s.procs slot) proc) (idle : proc.waitable = false) :
    Logged (adopt s priority isUser isThread slot proc) log := by
  refine logged.settle (Nat.le_succ _) (fun other => ?_) (fun pid old dead => ?_) fun other small used waits => ?_
  · rw [adopt_procs]
    split
    · rename_i own
      rw [own]
      exact same
    · exact ⟨rfl, rfl, rfl, rfl, rfl⟩
  · rw [adopt_tcb old.ne]
    exact dead
  · rw [adopt_procs] at waits ⊢
    split at waits
    · rw [idle] at waits
      cases waits
    · rename_i own
      rw [if_neg own, adopt_tcb (counted.leader other small used).1.ne]
      exact logged.code other small used waits

theorem Logged.reap (logged : Logged s log) (counted : Counted s) (small : slot < schedMaxTasks)
    (used : (s.procs slot).inUse = true) (waits : (s.procs slot).waitable = true)
    (named : (s.procs slot).tgid ≠ 0) :
    Logged (s.setProc slot fun proc => { proc with waitable := false, inUse := false })
      (log ++ [.reaped (s.procs slot).tgid (exitStatus (s.tcb (s.procs slot).tgid).exitCode)]) := by
  obtain ⟨inside, leads⟩ := counted.leader slot small used
  obtain ⟨final, coded⟩ := logged.code slot small used waits
  -- The other processes have other leaders.
  have other : ∀ slot', slot' < schedMaxTasks →
      ((s.setProc slot fun proc => { proc with waitable := false, inUse := false }).procs slot').inUse = true →
      (s.setProc slot fun proc => { proc with waitable := false, inUse := false }).procs slot' = s.procs slot' ∧
        (s.procs slot').inUse = true ∧ (s.procs slot).tgid ≠ (s.procs slot').tgid := by
    intro slot' small' used'
    have own : slot' ≠ slot := by
      rintro rfl
      simp at used'
    rw [setProc_other _ own] at used' ⊢
    exact ⟨rfl, used', fun same => own (counted.tgid_inj small small' used used' same).symm⟩
  refine ⟨fun event member => ?_, fun slot' small' used' => ?_, fun slot' small' used' waits' => ?_,
    fun slot' small' used' zero => ?_, fun slot' small' used' status member => ?_, fun pid status member => ?_, ?_⟩
  · rcases List.mem_append.mp member with old | last
    · exact logged.known event old
    · cases List.mem_singleton.mp last
      exact inside
  · obtain ⟨same, used', -⟩ := other slot' small' used'
    rw [same, groupCode_append]
    exact logged.group slot' small' used'
  · obtain ⟨same, used', apart⟩ := other slot' small' used'
    rw [same] at waits' ⊢
    rw [finalCode_other (.reaped _ _) apart]
    exact logged.code slot' small' used' waits'
  · obtain ⟨same, used', -⟩ := other slot' small' used'
    rw [same] at zero ⊢
    exact logged.root slot' small' used' zero
  · obtain ⟨same, used', apart⟩ := other slot' small' used'
    rw [same] at member
    rcases List.mem_append.mp member with old | last
    · exact logged.gone slot' small' used' status old
    · exact apart (Event.reaped.inj (List.mem_singleton.mp last)).1.symm
  · rcases List.mem_append.mp member with old | last
    · exact logged.dead pid status old
    · cases List.mem_singleton.mp last
      -- No task of the process is left, not even its leader.
      by_contra alive
      have none := counted.not_waitable inside alive
      rw [leads, waits] at none
      cases none
  · apply logged.honest.append
    · rintro pid status member rfl
      exact logged.gone slot small used status member
    · rintro pid status same
      cases same
      exact ⟨_, final, by rw [coded named]⟩

theorem Logged.stopped (logged : Logged s log) (inside : t < s.taskCount) (alive : (s.tcb t).state ≠ .zombie) :
    Logged s (log ++ [.stopped t]) := by
  refine ⟨fun event member => ?_, fun slot small used => ?_, fun slot small used waits => ?_, logged.root,
    fun slot small used status member => ?_, fun pid status member => ?_, ?_⟩
  · rcases List.mem_append.mp member with old | last
    · exact logged.known event old
    · cases List.mem_singleton.mp last
      exact inside
  · rw [groupCode_append]
    exact logged.group slot small used
  · rw [finalCode_append]
    exact logged.code slot small used waits
  · exact logged.gone slot small used status (by simpa using member)
  · exact logged.dead pid status (by simpa using member)
  · apply logged.honest.append
    · rintro pid status member rfl
      exact alive (logged.dead _ status member)
    · rintro pid status same
      cases same

end

end Enlil.Sched
