import Enlil.Sched.ProcessRuns

/-! How many tasks can be created before a fork stops the kernel. -/

namespace Enlil.Sched

/-- A task is live until it has ended, and one that a process is named after until it was waited for. -/
def State.Live (s : State) (t : Nat) : Prop :=
  (s.tcb t).state ≠ .zombie ∨ (procOf s t).any fun proc => proc.tgid = (s.tcb t).pid

instance (s : State) (t : Nat) : Decidable (s.Live t) := inferInstanceAs (Decidable (_ ∨ _))

/-- The number of live tasks. -/
def State.liveCount (s : State) : Nat := (List.range s.taskCount).countP fun t => s.Live t

/-- A fork gets past its checks only in a user task of its own, with memory for the child. -/
def Forks (s : State) (memory : Bool) : Prop :=
  (s.tcb s.current).isUser = true ∧ procRefcount s s.current ≤ 1 ∧ memory = true

section

variable {s : State}

theorem Counted.free_slot (counted : Counted s) (space : s.taskCount < schedMaxTasks) :
    ∃ slot < schedMaxTasks, (s.procs slot).inUse = false := by
  by_contra full
  push Not at full
  have used : ∀ slot < schedMaxTasks, (s.procs slot).inUse = true := fun slot small => by
    simpa using full slot small
  -- Each slot has a leader of its own among the tasks.
  have bound : (Finset.range schedMaxTasks).card ≤ (Finset.range s.taskCount).card := by
    apply Finset.card_le_card_of_injOn fun slot => (s.procs slot).tgid
    · intro slot member
      have small : slot < schedMaxTasks := by simpa using member
      simpa using (counted.leader slot small (used slot small)).1
    · intro slot member other member' same
      have small : slot < schedMaxTasks := by simpa using member
      have small' : other < schedMaxTasks := by simpa using member'
      exact counted.tgid_inj small small' (used slot small) (used other small') same
  simp at bound
  omega

theorem Counted.forkUser_returns (counted : Counted s) (space : s.taskCount < schedMaxTasks) (priority : UInt8) :
    ∃ child s', schedTaskForkUser s priority = .ok (child, s') := by
  obtain ⟨slot, small, free⟩ := counted.free_slot space
  have found : ((List.range schedMaxTasks).find? fun i => !(s.procs i).inUse).isSome = true := by
    rw [List.find?_isSome]
    exact ⟨slot, by simpa using small, by simp [free]⟩
  obtain ⟨slot', found⟩ := Option.isSome_iff_exists.mp found
  have bound : ∀ (fresh : State) parentPid pgid, fresh.procs = s.procs →
      taskBindNewProcess fresh s.taskCount parentPid pgid ≠ none := by
    intro fresh parentPid pgid same
    simp [taskBindNewProcess, procAlloc, same, found]
  have room : ¬ s.taskCount ≥ schedMaxTasks := by omega
  unfold schedTaskForkUser spawn taskAlloc
  simp only [if_neg room]
  split
  · rename_i none
    exact absurd none (bound _ _ _ rfl)
  · exact ⟨_, _, rfl⟩

theorem Counted.fork_returns_iff (counted : Counted s) (memory : Bool) :
    (∃ result, sysFork s memory = .ok result) ↔ ¬ Forks s memory ∨ s.taskCount < schedMaxTasks := by
  have plain := counted.plain _ counted.bounded.current
  by_cases forks : Forks s memory
  · obtain ⟨user, alone, enough⟩ := forks
    have few : ¬ procRefcount s s.current > 1 := by omega
    by_cases space : s.taskCount < schedMaxTasks
    · refine iff_of_true ?_ (.inr space)
      obtain ⟨child, s', spawned⟩ := counted.forkUser_returns space (s.tcb s.current).priority
      simp [sysFork, user, plain, few, enough, spawned]
    · refine iff_of_false ?_ (by simp [space, Forks, user, alone, enough])
      have full : s.taskCount ≥ schedMaxTasks := by omega
      rintro ⟨result, returned⟩
      simp [sysFork, user, plain, few, enough, schedTaskForkUser, spawn, taskAlloc, full] at returned
  · refine iff_of_true ?_ (.inl forks)
    unfold sysFork
    by_cases user : (s.tcb s.current).isUser = true
    · by_cases many : procRefcount s s.current > 1
      · simp [user, plain, many]
      · have poor : memory = false := by
          by_contra enough
          exact forks ⟨user, by omega, by simpa using enough⟩
        simp [user, plain, many, poor]
    · simp [user]

end

/-- A child is made, ends and is waited for. -/
def childRound : List Call := [.fork true, .step .yield, .exit 0 [], .waitpid (-1) false true]

/-- Two children end and are waited for before the others are made. -/
def manyChildren : List Call :=
  [.step (.createUser 100), .step .block] ++ childRound ++ childRound ++ List.replicate 91 (.fork true)

theorem State.liveCount_le (s : State) : s.liveCount ≤ s.taskCount := by
  rw [State.liveCount]
  exact List.countP_le_length.trans_eq List.length_range

end Enlil.Sched
