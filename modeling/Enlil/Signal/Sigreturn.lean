import Enlil.Mmu.UserCopy
import Enlil.Signal.Signal

/-! What a return from a signal handler makes of the registers of its task. -/

namespace Enlil.Signal

open Mmu Pmm

section

variable {data data' : Bytes}

theorem frameWord_of_bytes {i : Nat} {value : BitVec 64}
    (bytes : ∀ j < 8, data (8 * i + j) = UInt8.ofNat (value.toNat / 256 ^ j)) : frameWord data i = value := by
  have same : readLe data (8 * i) 8 = readLe (writeLe data (8 * i) 8 value.toNat) (8 * i) 8 := by
    refine readLe_congr fun p low high => ?_
    have byte := bytes (p - 8 * i) (by omega)
    rw [show 8 * i + (p - 8 * i) = p by omega] at byte
    rw [byte, writeLe, if_pos ⟨low, high⟩]
  rw [frameWord, same, readLe_writeLe (Nat.le_refl 8), Nat.mod_eq_of_lt (show value.toNat < 256 ^ 8 from value.isLt)]
  simp

theorem frameWord_congr {i : Nat} (inside : i < 40) (same : ∀ p < sigframeSize, data p = data' p) :
    frameWord data i = frameWord data' i := by
  rw [frameWord, frameWord]
  exact congrArg (BitVec.ofNat 64) (readLe_congr fun p _ high => same p (by unfold sigframeSize; omega))

theorem decodeFrame_congr (same : ∀ p < sigframeSize, data p = data' p) : decodeFrame data = decodeFrame data' := by
  have word : ∀ i < 40, frameWord data i = frameWord data' i := fun i inside => frameWord_congr inside same
  have registers : ∀ i : Fin 31, frameWord data (4 + i) = frameWord data' (4 + i) := fun i => word _ (by omega)
  simp only [decodeFrame, registers, word 0 (by omega), word 1 (by omega), word 2 (by omega), word 3 (by omega),
    word 35 (by omega), word 36 (by omega), word 37 (by omega), word 38 (by omega), word 39 (by omega)]

theorem decodeFrame_encode (sigframe : SignalUserFrame) : decodeFrame sigframe.encode = sigframe := by
  have word : ∀ i, frameWord sigframe.encode i = sigframe.word i := by
    intro i
    refine frameWord_of_bytes fun j below => ?_
    rw [SignalUserFrame.encode, show (8 * i + j) / 8 = i by omega, show (8 * i + j) % 8 = j by omega]
  have registers : ∀ i : Fin 31, sigframe.word (4 + i) = sigframe.savedFrame.x i := by
    intro i
    rw [Nat.add_comm]
    simp [SignalUserFrame.word, ExceptionFrame.word]
  simp only [decodeFrame, word, registers]
  rfl

end

/-- The mode field of a status register selects EL0, and no interrupt is masked. -/
def El0Spsr (spsr : BitVec 64) : Prop := spsr.extractLsb' 0 4 = 0 ∧ spsr.extractLsb' 6 4 = 0

/-- A return from a handler takes a frame: the task is a user task in a handler, and the frame is on its stack. -/
structure Accepts (c : Context) (sigframe : SignalUserFrame) : Prop where
  isUser : c.isUser = true
  inHandler : c.st.inHandler = true
  onStack : ∃ mm data, c.mm = some mm ∧ UserReads mm.space mm.memory c.frame.sp.toNat sigframeSize data ∧
    sigframe = decodeFrame data
  magic : sigframe.magic = sigframeMagic

section

variable {c : Context} {sigframe other : SignalUserFrame}

theorem Accepts.unique (accepts : Accepts c sigframe) (accepts' : Accepts c other) : sigframe = other := by
  obtain ⟨mm, data, memory, reads, rfl⟩ := accepts.onStack
  obtain ⟨mm', data', memory', reads', rfl⟩ := accepts'.onStack
  obtain rfl := Option.some.inj (memory.symm.trans memory')
  exact decodeFrame_congr fun p below => Option.some.inj ((reads.2 p below).symm.trans (reads'.2 p below))

/-- The task after a return that took a frame. -/
def Context.resumed (c : Context) (sigframe : SignalUserFrame) : Context :=
  { c with
    st := { c.st with blocked := signalStripUnmaskable sigframe.savedMask, inHandler := false, activeSig := 0 }
    frame := sigframe.savedFrame }

theorem sigreturn_accepts (accepts : Accepts c sigframe) :
    signalSigreturnCurrent c = (.ok (), c.resumed sigframe) := by
  obtain ⟨isUser, inHandler, ⟨mm, data, memory, reads, rfl⟩, magic⟩ := accepts
  obtain ⟨copy, ran, same⟩ := @copyFromUser_some _ _ _ _ (fun _ => 0) c.frame.sp.isLt _ reads
  have frame : decodeFrame copy = decodeFrame data := decodeFrame_congr same
  simp [signalSigreturnCurrent, isUser, inHandler, memory, ran, frame, magic, Context.resumed]

theorem sigreturn_refuses (refuses : ∀ sigframe, ¬ Accepts c sigframe) :
    ∃ error, signalSigreturnCurrent c = (.error error, c) := by
  unfold signalSigreturnCurrent
  split
  · exact ⟨_, rfl⟩
  split
  · exact ⟨_, rfl⟩
  split
  · exact ⟨_, rfl⟩
  split
  · exact ⟨_, rfl⟩
  rename_i isUser inHandler _ mm memory _ data ran
  dsimp only
  split
  · exact ⟨_, rfl⟩
  · rename_i magic
    exact absurd
      { isUser := by simpa using isUser
        inHandler := by simpa using inHandler
        onStack := ⟨mm, data, memory, copyFromUser_userReads c.frame.sp.isLt ran, rfl⟩
        magic := by simpa using magic } (refuses (decodeFrame data))

/-- The registers that the return path loads are those of EL0 exactly if the frame on the stack, or without one the interrupted code, has them so. -/
theorem sigreturn_el0_iff (c : Context) :
    El0Spsr (signalSigreturnCurrent c).2.frame.spsr ↔
      (∀ sigframe, Accepts c sigframe → El0Spsr sigframe.savedFrame.spsr) ∧
        ((∃ sigframe, Accepts c sigframe) ∨ El0Spsr c.frame.spsr) := by
  by_cases taken : ∃ sigframe, Accepts c sigframe
  · obtain ⟨sigframe, accepts⟩ := taken
    rw [sigreturn_accepts accepts]
    constructor
    · intro el0
      exact ⟨fun other accepts' => accepts.unique accepts' ▸ el0, Or.inl ⟨sigframe, accepts⟩⟩
    · rintro ⟨all, _⟩
      exact all sigframe accepts
  · obtain ⟨error, same⟩ := sigreturn_refuses fun sigframe accepts => taken ⟨sigframe, accepts⟩
    rw [same]
    constructor
    · exact fun el0 => ⟨fun sigframe accepts => absurd ⟨sigframe, accepts⟩ taken, Or.inr el0⟩
    · rintro ⟨_, accepts | el0⟩
      · exact absurd accepts taken
      · exact el0

end

/-- A signal state inside the handler of signal ten. -/
def handlingState : SignalState := { SignalState.zero with inHandler := true, activeSig := 10 }

/-- Registers with a stack pointer and a status register. -/
def plainFrame (sp spsr : BitVec 64) : ExceptionFrame := ⟨fun _ => 0, sp, 0, spsr, 0, 0⟩

/-- The first stack page below the top of the user stack. -/
def stackPage : Nat := mmuUserStackTop - pageSize

/-- A space with one writable page at the top of the stack. -/
def stackSpace : Space where
  rootPa := 0x40400000
  l2Tables := SortedMap.empty.set (l1Index stackPage) 0x40401000
  l3Tables := SortedMap.empty.set (l3Index stackPage) 0x40402000
  leaves := SortedMap.empty.set (pageIndex stackPage) ⟨0x40403000, true, false, false⟩
  mmapBase := mmuUserBase
  extents := [⟨stackPage, 0x40403000, 1, 0⟩]

/-- A user task in a handler that put a frame of its own making at its stack pointer. -/
def forgedReturn (sigframe : SignalUserFrame) : Context where
  st := handlingState
  actions := fun _ => ⟨sigDfl, 0, 0⟩
  isUser := true
  abiLinux := false
  mm := some ⟨Buddy.empty, fun p => sigframe.encode (p - 0x40403000), stackSpace⟩
  frame := plainFrame (BitVec.ofNat 64 stackPage) 0

theorem forgedReturn_accepts {sigframe : SignalUserFrame} (magic : sigframe.magic = sigframeMagic) :
    Accepts (forgedReturn sigframe) sigframe where
  isUser := rfl
  inHandler := rfl
  onStack := by
    have sp : (forgedReturn sigframe).frame.sp.toNat = stackPage :=
      (by decide : (BitVec.ofNat 64 stackPage).toNat = stackPage)
    refine ⟨_, sigframe.encode, rfl, ?_, (decodeFrame_encode sigframe).symm⟩
    rw [sp]
    refine ⟨by decide, fun p below => ?_⟩
    have page : (stackPage + p) / pageSize = stackPage / pageSize := by
      unfold stackPage pageSize mmuUserStackTop sigframeSize at *
      omega
    have offset : (stackPage + p) % pageSize = p := by
      unfold stackPage pageSize mmuUserStackTop sigframeSize at *
      omega
    have found : validPte stackSpace stackPage = some ⟨0x40403000, true, false, false⟩ := by decide
    rw [userByte, validPte_samePage page, offset]
    simp [found]
  magic := magic

/-- A frame whose status register selects EL1 with all interrupts masked is resumed as it is. -/
theorem sigreturn_raises_privilege :
    ¬ ∀ c : Context, El0Spsr c.frame.spsr → El0Spsr (signalSigreturnCurrent c).2.frame.spsr := by
  intro keeps
  have el1 := keeps (forgedReturn ⟨sigframeMagic, 0, 0, 0, plainFrame 0 0x3C5⟩) ⟨rfl, rfl⟩
  rw [sigreturn_accepts (forgedReturn_accepts rfl)] at el1
  exact absurd el1.1 (by decide)

end Enlil.Signal
