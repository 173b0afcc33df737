import Mathlib

/-! The position of a descriptor: `lseek` of `kernel/syscall.c`, for files of the kernel and for those behind its file server. -/

namespace Enlil.Fd

/-- What a descriptor stands for, as far as seeking looks at it. -/
inductive SeekType where
  | vfs
  | vfsd
  | pipe
  | other
  deriving DecidableEq

inductive SeekErrno where
  | ebadf
  | einval
  | espipe
  /-- One that a file system or the file server answers with. -/
  | answered (code : Nat)
  deriving DecidableEq

/-- An open file: whether it has a file of a mount, its position, and the position of the handle that the server has for it. -/
structure SeekObject where
  type : SeekType
  mounted : Bool
  pos : UInt64
  handlePos : UInt64
  deriving DecidableEq

/-- What others answer: the size of the file here and at the server, and whether the call to the server comes through. -/
structure SeekAnswers where
  stat : Except SeekErrno UInt64
  remoteStat : Except SeekErrno UInt64
  call : Except SeekErrno Unit

def seekSet : Int32 := 0
def seekCur : Int32 := 1
def seekEnd : Int32 := 2

/-- A base and an offset, added in the machine's words. -/
def seekFrom (base : UInt64) (offset : Int64) : Except SeekErrno UInt64 :=
  if offset < 0 ∧ base < (-offset).toUInt64 then .error .einval
  else .ok (if offset < 0 then base - (-offset).toUInt64 else base + offset.toUInt64)

/-- Moves the position of a file of the kernel, which is also what the server does for its handles. -/
def vfsFileDoSeek (pos : UInt64) (stat : Except SeekErrno UInt64) (offset : Int64) (whence : Int32) :
    Except SeekErrno UInt64 := do
  let base ←
    if whence = seekSet then .ok 0
    else if whence = seekCur then .ok pos
    else if whence = seekEnd then stat
    else .error .einval
  seekFrom base offset

/-- A seek of a handle by the server: the position that the handle has then, and the answer as a signed number. -/
def vfsdProxyLseek (obj : SeekObject) (answers : SeekAnswers) (offset : Int64) (whence : Int32) :
    UInt64 × Except SeekErrno UInt64 :=
  match answers.call >>= fun _ => vfsFileDoSeek obj.handlePos answers.remoteStat offset whence with
  | .error error => (obj.handlePos, .error error)
  | .ok newPos =>
    -- A negative number is taken for an error, although the handle was moved.
    (newPos, if newPos.toInt64 < 0 then .error (.answered (-newPos.toInt64).toUInt64.toNat) else .ok newPos)

/-- What the offset is added to. -/
def seekBase (obj : SeekObject) (answers : SeekAnswers) (whence : Int32) : Except SeekErrno UInt64 :=
  if whence = seekSet then .ok 0
  else if whence = seekCur then .ok obj.pos
  else if whence = seekEnd then
    if obj.mounted then answers.stat
    else if obj.type = .vfsd then answers.remoteStat
    else .error .einval
  else .error .einval

/-- Moves the position of an open file, and returns it. -/
def fdObjectSeek (obj : SeekObject) (answers : SeekAnswers) (offset : Int64) (whence : Int32) :
    SeekObject × Except SeekErrno UInt64 :=
  match obj.type with
  | .pipe => (obj, .error .espipe)
  | .other => (obj, .error .ebadf)
  | type =>
    match seekBase obj answers whence >>= (seekFrom · offset) with
    | .error error => (obj, .error error)
    | .ok newPos =>
      if type = .vfsd then
        let (handlePos, remote) := vfsdProxyLseek obj answers newPos.toInt64 seekSet
        match remote with
        | .error error => ({ obj with handlePos }, .error error)
        | .ok remotePos => ({ obj with handlePos, pos := remotePos }, .ok remotePos)
      else ({ obj with pos := newPos }, .ok newPos)

/-- The position at which the next transfer takes place. -/
def SeekObject.place (obj : SeekObject) : UInt64 := if obj.type = .vfsd then obj.handlePos else obj.pos

/-- What the offset should be added to. -/
def trueBase (obj : SeekObject) (answers : SeekAnswers) (whence : Int32) : Option UInt64 :=
  if whence = seekCur then some obj.place else (seekBase obj answers whence).toOption

/-- A seek is exact if it gives and stores the sum where it succeeds, and does nothing where there is no such position. -/
structure SeeksExactly (obj : SeekObject) (answers : SeekAnswers) (offset : Int64) (whence : Int32) (after : SeekObject)
    (result : Except SeekErrno UInt64) : Prop where
  gives : ∀ position, result = .ok position → ∃ base, trueBase obj answers whence = some base ∧
    position.toInt64.toInt = base.toNat + offset.toInt ∧ (after.place.toNat : Int) = base.toNat + offset.toInt
  rejects : ∀ base, trueBase obj answers whence = some base →
    (base.toNat + offset.toInt < 0 ∨ 2 ^ 63 ≤ base.toNat + offset.toInt) → (∃ error, result = .error error) ∧ after = obj

/--
A request whose sum the code can tell from other sums.

For a file of the kernel the sum fits in a signed word; for a file behind the server it does not wrap around to one, and the position that is kept here is that of the handle where it counts.
-/
def InRange (obj : SeekObject) (answers : SeekAnswers) (offset : Int64) (whence : Int32) : Prop :=
  ∀ base, seekBase obj answers whence = .ok base →
    match obj.type with
    | .pipe | .other => True
    | .vfs => base.toNat + offset.toInt < 2 ^ 63
    | .vfsd => (answers.call).isOk = true → 0 ≤ base.toNat + offset.toInt →
      (base.toNat + offset.toInt) % 2 ^ 64 < 2 ^ 63 →
        base.toNat + offset.toInt < 2 ^ 64 ∧ (whence = seekCur → obj.pos = obj.handlePos)

section

variable {base position : UInt64} {offset : Int64}

theorem toUInt64_toNat (offset : Int64) : (offset.toUInt64.toNat : Int) = offset.toInt % 2 ^ 64 := by
  have bound := offset.toUInt64.toNat_lt
  rw [← Int64.toInt_toBitVec, BitVec.toInt_eq_toNat_cond, Int64.toNat_toBitVec]
  split <;> omega

theorem toInt64_toInt (word : UInt64) :
    word.toInt64.toInt = if word.toNat < 2 ^ 63 then (word.toNat : Int) else word.toNat - 2 ^ 64 := by
  rw [← Int64.toInt_toBitVec, UInt64.toBitVec_toInt64, BitVec.toInt_eq_toNat_cond, UInt64.toNat_toBitVec]
  split <;> split <;> omega

theorem seekFrom_ok_iff : seekFrom base offset = .ok position ↔
    0 ≤ base.toNat + offset.toInt ∧ (position.toNat : Int) = (base.toNat + offset.toInt) % 2 ^ 64 := by
  have least := Int64.le_toInt offset
  have most := Int64.toInt_lt offset
  have word := toUInt64_toNat offset
  have bound := base.toNat_lt
  unfold seekFrom
  by_cases negative : offset < 0
  · -- The size of a negative offset fits in an unsigned word, also that of the least one.
    have below : offset.toInt < 0 := Int64.lt_iff_toInt_lt.mp negative
    have size : ((-offset).toUInt64.toNat : Int) = -offset.toInt := by
      rw [Int64.toUInt64_neg, UInt64.toNat_neg]
      change (((2 ^ 64 - offset.toUInt64.toNat) % 2 ^ 64 : Nat) : Int) = _
      omega
    simp only [negative, true_and, if_true, UInt64.lt_iff_toNat_lt]
    split
    · rename_i less
      constructor
      · nofun
      · intro both
        omega
    · rename_i enough
      have taken : (base - (-offset).toUInt64).toNat = base.toNat - (-offset).toUInt64.toNat :=
        UInt64.toNat_sub_of_le _ _ (UInt64.le_iff_toNat_le.mpr (not_lt.mp enough))
      rw [Except.ok.injEq, ← UInt64.toNat_inj, taken]
      omega
  · have above : 0 ≤ offset.toInt := not_lt.mp fun below => negative (Int64.lt_iff_toInt_lt.mpr below)
    simp only [negative, false_and, if_false]
    rw [Except.ok.injEq, ← UInt64.toNat_inj, UInt64.toNat_add]
    omega

end

section

variable {obj : SeekObject} {answers : SeekAnswers} {offset : Int64} {whence : Int32}

theorem seekBase_cur : seekBase obj answers seekCur = .ok obj.pos := rfl

theorem trueBase_eq (here : whence = seekCur → obj.place = obj.pos) :
    trueBase obj answers whence = (seekBase obj answers whence).toOption := by
  unfold trueBase
  split
  · rename_i current
    rw [here current, current, seekBase_cur]
    rfl
  · rfl

theorem vfsdProxyLseek_eq (reached : answers.call = .ok ()) (newPos : UInt64) :
    vfsdProxyLseek obj answers newPos.toInt64 seekSet =
      if newPos.toNat < 2 ^ 63 then (newPos, .ok newPos) else (obj.handlePos, .error .einval) := by
  have signed := toInt64_toInt newPos
  have asked : (answers.call >>= fun _ => vfsFileDoSeek obj.handlePos answers.remoteStat newPos.toInt64 seekSet) =
      seekFrom 0 newPos.toInt64 := by
    rw [reached]
    rfl
  rw [vfsdProxyLseek, asked]
  by_cases proper : newPos.toNat < 2 ^ 63
  · rw [if_pos proper] at signed ⊢
    have same : seekFrom 0 newPos.toInt64 = .ok newPos := by
      rw [seekFrom_ok_iff, signed, UInt64.toNat_zero]
      omega
    have positive : ¬ newPos.toInt64 < 0 := by
      rw [Int64.lt_iff_toInt_lt, signed]
      exact not_lt.mpr (Int.natCast_nonneg _)
    simp only [same, positive, if_false]
  · rw [if_neg proper] at signed ⊢
    have bound := newPos.toNat_lt
    have refused : seekFrom 0 newPos.toInt64 = .error .einval := by
      cases got : seekFrom 0 newPos.toInt64 with
      | ok position =>
        have sum := (seekFrom_ok_iff.mp got).1
        rw [signed, UInt64.toNat_zero] at sum
        omega
      | error error =>
        unfold seekFrom at got
        split at got <;> cases got
        rfl
    rw [refused]

theorem SeeksExactly.of_error {error : SeekErrno} : SeeksExactly obj answers offset whence obj (.error error) where
  gives _ := nofun
  rejects _ _ _ := ⟨⟨error, rfl⟩, rfl⟩

theorem seekFrom_error {base : UInt64} {error : SeekErrno} (failed : seekFrom base offset = .error error) :
    base.toNat + offset.toInt < 0 := by
  by_contra proper
  have bound : 0 ≤ (base.toNat + offset.toInt) % 2 ^ 64 := Int.emod_nonneg _ (by decide)
  have less : (base.toNat + offset.toInt) % 2 ^ 64 < 2 ^ 64 := Int.emod_lt_of_pos _ (by decide)
  have word : (UInt64.ofNat ((base.toNat + offset.toInt) % 2 ^ 64).toNat).toNat = ((base.toNat + offset.toInt) % 2 ^ 64).toNat := by
    rw [UInt64.toNat_ofNat', Nat.mod_eq_of_lt (by omega)]
  have works : seekFrom base offset = .ok (UInt64.ofNat ((base.toNat + offset.toInt) % 2 ^ 64).toNat) :=
    seekFrom_ok_iff.mpr ⟨not_lt.mp proper, by omega⟩
  cases failed.symm.trans works

theorem seek_vfs (type : obj.type = .vfs) :
    SeeksExactly obj answers offset whence (fdObjectSeek obj answers offset whence).1
      (fdObjectSeek obj answers offset whence).2 ↔ InRange obj answers offset whence := by
  have here : obj.place = obj.pos := by rw [SeekObject.place, type]; rfl
  unfold InRange
  simp only [fdObjectSeek, type]
  cases found : seekBase obj answers whence with
  | error error => exact ⟨fun _ => nofun, fun _ => .of_error⟩
  | ok base =>
    have target : trueBase obj answers whence = some base := by
      rw [trueBase_eq fun _ => here, found]
      rfl
    have bind : (Except.ok base >>= (seekFrom · offset)) = seekFrom base offset := rfl
    rw [bind]
    cases got : seekFrom base offset with
    | error error =>
      have negative := seekFrom_error got
      refine ⟨fun _ base' same => ?_, fun _ => .of_error⟩
      cases same
      omega
    | ok position =>
      obtain ⟨positive, word⟩ := seekFrom_ok_iff.mp got
      have signed := toInt64_toInt position
      have bound := position.toNat_lt
      constructor
      · intro exact base' same
        cases same
        -- What is returned is the sum as a signed number, which therefore fits in one.
        obtain ⟨_, same, returned, _⟩ := exact.gives position rfl
        cases target.symm.trans same
        split at signed <;> omega
      · intro fits
        have small := fits base rfl
        have stored : (position.toNat : Int) = base.toNat + offset.toInt := by omega
        rw [if_pos (by omega)] at signed
        constructor
        · intro _ same
          cases same
          exact ⟨base, target, signed.trans stored, stored⟩
        · intro _ same away
          cases target.symm.trans same
          omega

theorem seek_vfsd (type : obj.type = .vfsd) :
    SeeksExactly obj answers offset whence (fdObjectSeek obj answers offset whence).1
      (fdObjectSeek obj answers offset whence).2 ↔ InRange obj answers offset whence := by
  have same : (⟨.vfsd, obj.mounted, obj.pos, obj.handlePos⟩ : SeekObject) = obj := by rw [← type]
  unfold InRange
  simp only [fdObjectSeek, type, if_true]
  cases found : seekBase obj answers whence with
  | error error => exact ⟨fun _ => nofun, fun _ => .of_error⟩
  | ok base =>
    have bind : (Except.ok base >>= (seekFrom · offset)) = seekFrom base offset := rfl
    rw [bind]
    cases got : seekFrom base offset with
    | error error =>
      have negative := seekFrom_error got
      refine ⟨fun _ base' same => ?_, fun _ => .of_error⟩
      cases same
      omega
    | ok newPos =>
      obtain ⟨positive, word⟩ := seekFrom_ok_iff.mp got
      dsimp only
      cases reached : answers.call with
      | error error =>
        have failed : vfsdProxyLseek obj answers newPos.toInt64 seekSet = (obj.handlePos, .error error) := by
          rw [vfsdProxyLseek, reached]
          rfl
        rw [failed]
        dsimp only
        rw [same]
        exact ⟨fun _ _ _ => nofun, fun _ => .of_error⟩
      | ok _ =>
        rw [vfsdProxyLseek_eq reached]
        by_cases small : newPos.toNat < 2 ^ 63
        · have signed := toInt64_toInt newPos
          rw [if_pos small] at signed ⊢
          dsimp only
          constructor
          · intro exact base' same _ _ fits
            cases same
            obtain ⟨target, asked, _, stored⟩ := exact.gives newPos rfl
            change (newPos.toNat : Int) = _ at stored
            by_cases current : whence = seekCur
            · -- Two words that differ by a multiple of the word's range are the same.
              have handle : target = obj.handlePos := by
                rw [trueBase, if_pos current, SeekObject.place, type] at asked
                exact (Option.some.inj asked).symm
              have kept : base = obj.pos := by
                rw [current, seekBase_cur] at found
                exact (Except.ok.inj found).symm
              have low := target.toNat_lt
              have high := base.toNat_lt
              have equal : base.toNat = target.toNat := by omega
              refine ⟨by omega, fun _ => ?_⟩
              rw [← kept, ← handle]
              exact UInt64.toNat_inj.mp equal
            · have equal : target = base := by
                rw [trueBase, if_neg current, found] at asked
                exact (Option.some.inj asked).symm
              rw [equal] at stored
              exact ⟨by omega, fun yes => absurd yes current⟩
          · intro fits
            obtain ⟨less, kept⟩ := fits base rfl rfl positive (by omega)
            have target : trueBase obj answers whence = some base := by
              rw [trueBase_eq fun current => ?_, found]
              · rfl
              · rw [SeekObject.place, type, kept current]
                rfl
            have stored : (newPos.toNat : Int) = base.toNat + offset.toInt := by omega
            constructor
            · intro _ same
              cases same
              exact ⟨base, target, signed.trans stored, stored⟩
            · intro _ same away
              cases target.symm.trans same
              omega
        · -- The server refuses the position, and the condition says nothing of it.
          rw [if_neg small]
          dsimp only
          rw [same]
          refine ⟨fun _ base' same _ _ fits => ?_, fun _ => .of_error⟩
          cases same
          omega

/-- A request is exact if and only if its sum can be told from other sums. -/
theorem seek_iff (obj : SeekObject) (answers : SeekAnswers) (offset : Int64) (whence : Int32) :
    SeeksExactly obj answers offset whence (fdObjectSeek obj answers offset whence).1
      (fdObjectSeek obj answers offset whence).2 ↔ InRange obj answers offset whence := by
  cases type : obj.type with
  | vfs => exact seek_vfs type
  | vfsd => exact seek_vfsd type
  | pipe =>
    simp only [InRange, fdObjectSeek, type]
    exact ⟨fun _ _ _ => trivial, fun _ => .of_error⟩
  | other =>
    simp only [InRange, fdObjectSeek, type]
    exact ⟨fun _ _ _ => trivial, fun _ => .of_error⟩

/-- A file of one byte is moved to the largest offset from its end: the position is stored, and what is returned is negative. -/
theorem seek_past :
    fdObjectSeek ⟨.vfs, true, 0, 0⟩ ⟨.ok 1, .ok 1, .ok ()⟩ 9223372036854775807 seekEnd =
        (⟨.vfs, true, 9223372036854775808, 0⟩, .ok 9223372036854775808) ∧
      (9223372036854775808 : UInt64).toInt64.toInt = -9223372036854775808 ∧
      ¬ SeeksExactly ⟨.vfs, true, 0, 0⟩ ⟨.ok 1, .ok 1, .ok ()⟩ 9223372036854775807 seekEnd
        (fdObjectSeek ⟨.vfs, true, 0, 0⟩ ⟨.ok 1, .ok 1, .ok ()⟩ 9223372036854775807 seekEnd).1
        (fdObjectSeek ⟨.vfs, true, 0, 0⟩ ⟨.ok 1, .ok 1, .ok ()⟩ 9223372036854775807 seekEnd).2 := by
  refine ⟨rfl, rfl, fun exact => ?_⟩
  obtain ⟨⟨_, error⟩, _⟩ := exact.rejects 1 rfl (.inr (by decide))
  cases error

end

end Enlil.Fd
