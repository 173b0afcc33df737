import Enlil.Mmu.Isolation
import Enlil.Mmu.UserWrites
import Enlil.Signal.Masks
import Enlil.Signal.Sigreturn

/-! The return from a handler undoes the delivery that called it. -/

namespace Enlil.Signal

open Mmu Pmm

/-- A mask that blocks neither of the signals that cannot be blocked. -/
def Unblocking (mask : BitVec 64) : Prop :=
  mask.getLsbD (sigkill - 1) = false ∧ mask.getLsbD (sigstop - 1) = false

/-- A task that is about to return from a handler, with the frame of its delivery still on its stack. -/
structure Returning (c c' d : Context) (sig : Nat) : Prop where
  isUser : d.isUser = true
  inHandler : d.st.inHandler = true
  sp : d.frame.sp = c'.frame.sp
  onStack : ∃ mm, d.mm = some mm ∧
    UserReads mm.space mm.memory d.frame.sp.toNat sigframeSize (sigframeOf c sig).encode

section

variable {c c' d : Context} {sig : Nat} {act : SigAction} {reserved : Nat → Bool} {shared : Nat → Prop}
  {outer : Nat → Nat} {s : State}

theorem install_onStack (ran : signalInstallUserFrame c sig act = .ok (.ok (), c'))
    (settled : ∀ mm, c.mm = some mm → Settled reserved shared outer (fun _ => 0) mm) :
    ∃ mm, c'.mm = some mm ∧
      UserReads mm.space mm.memory c'.frame.sp.toNat sigframeSize (sigframeOf c sig).encode := by
  unfold signalInstallUserFrame at ran
  split at ran
  · cases ran
  split at ran
  · cases ran
  rename_i mm memory
  split at ran
  · cases ran
  obtain ⟨⟨copied, mm'⟩, copy, rest⟩ := bind_ok ran
  dsimp only at rest
  split at rest
  · rename_i done
    subst done
    cases rest
    exact ⟨mm', rfl, (settled mm memory).copyToUser_reads (by decide) _ (Nat.zero_le _)
      (show (sigSp c.frame).toNat + 0 < 2 ^ 64 from (sigSp c.frame).isLt) nofun copy⟩
  · cases rest

theorem install_inHandler (ran : signalInstallUserFrame c sig act = .ok (.ok (), c')) :
    c'.st.inHandler = true ∧ c'.isUser = c.isUser := by
  rcases install_cases ran with ⟨mm, _, rfl⟩ | ⟨error, mm, no, _⟩
  · exact ⟨rfl, rfl⟩
  · cases no

theorem sigreturn_restores (unblocking : Unblocking c.st.blocked) (returning : Returning c c' d sig) :
    ∃ d', signalSigreturnCurrent d = (.ok (), d') ∧ d'.frame = c.frame ∧ d'.st.blocked = c.st.blocked := by
  obtain ⟨mm, memory, reads⟩ := returning.onStack
  have accepts : Accepts d (sigframeOf c sig) :=
    { isUser := returning.isUser
      inHandler := returning.inHandler
      onStack := ⟨mm, _, memory, reads, (decodeFrame_encode _).symm⟩
      magic := rfl }
  exact ⟨_, sigreturn_accepts accepts, rfl, (maskable_iff.mpr unblocking).strip_eq⟩

/-- No mask of a run blocks the two signals, and under such a mask the return from a handler undoes its delivery. -/
theorem run_delivery_undone (run : Run exec (fun s op => op.Valid s) signalInit s) :
    (∀ slot, Unblocking (s.st slot).blocked) ∧
      ∀ c sig act c', Unblocking c.st.blocked → signalInstallUserFrame c sig act = .ok (.ok (), c') →
        (c.isUser = true → ∀ reserved shared outer,
          (∀ mm, c.mm = some mm → Settled reserved shared outer (fun _ => 0) mm) → Returning c c' c' sig) ∧
        ∀ d, Returning c c' d sig →
          ∃ d', signalSigreturnCurrent d = (.ok (), d') ∧ d'.frame = c.frame ∧ d'.st.blocked = c.st.blocked := by
  refine ⟨fun slot => maskable_iff.mp ((run_unmasked run).blocked slot), fun c sig act c' unblocking ran => ⟨?_, ?_⟩⟩
  · intro isUser reserved shared outer settled
    obtain ⟨inHandler, same⟩ := install_inHandler ran
    exact ⟨same.trans isUser, inHandler, rfl, install_onStack ran settled⟩
  · exact fun d returning => sigreturn_restores unblocking returning

end

/-- A user task whose stack pointer is at the end of the first page of the window, over a memory. -/
def firstTask (mm : Mm) : Context where
  st := SignalState.zero
  actions := resetActions
  isUser := true
  abiLinux := false
  mm := some mm
  frame := plainFrame (BitVec.ofNat 64 (mmuUserBase + pageSize)) 0

theorem firstTask_unblocking (mm : Mm) : Unblocking (firstTask mm).st.blocked := by
  show Unblocking (0 : BitVec 64)
  exact ⟨by decide, by decide⟩

/-- An action with a handler in the window. -/
def sampleAction : SigAction := ⟨BitVec.ofNat 64 mmuUserBase, 0, 0⟩

/-- Whether a delivery reaches the handler. -/
def installs (c : Context) (sig : Nat) (act : SigAction) : Bool :=
  match signalInstallUserFrame c sig act with
  | .ok (.ok (), _) => true
  | _ => false

/-- A signal delivered on a fresh stack page and its return. -/
theorem run_delivery_undone_firstTask : ∃ c c' d', signalInstallUserFrame c 10 sampleAction = .ok (.ok (), c') ∧
    signalSigreturnCurrent c' = (.ok (), d') ∧ d'.frame = c.frame ∧ d'.st.blocked = c.st.blocked := by
  have found : (runList Mmu.exec (fun s op => s.starting op = true) emptyBoot firstSpace).any
      (fun s => (s.state.spaces 0).any fun space => installs (firstTask (s.state.mm space)) 10 sampleAction) = true := by
    decide
  obtain ⟨s, run, delivered⟩ := runList_any found
  cases here : s.state.spaces 0 with
  | none => simp [here] at delivered
  | some space =>
    rw [here, Option.any_some] at delivered
    have accounted := (run_accounted largestBlocks_tiles
      (run.mono fun _ _ starting => @Session.starting_allowed kernelReserved _ _ starting)).1
    have settled := accounted.settled here
    unfold installs at delivered
    generalize task : firstTask (s.state.mm space) = c at delivered
    split at delivered
    · rename_i c' ran
      subst task
      have none : Unblocking (firstTask (s.state.mm space)).st.blocked := firstTask_unblocking _
      obtain ⟨first, second⟩ :=
        (run_delivery_undone .start).2 (firstTask (s.state.mm space)) 10 sampleAction c' none ran
      obtain ⟨d', back, frame, blocked⟩ := second c' (first rfl _ _ _ fun mm same => by
        cases same
        exact settled)
      exact ⟨_, c', d', ran, back, frame, blocked⟩
    · cases delivered

end Enlil.Signal
