import Enlil.Sched.Task

/-! The capability pool and the tables of tokens that tasks hold, as `kernel/cap.c` keeps them. -/

namespace Enlil.Cap

open Sched (schedMaxTasks)

/-- Slots of the global pool. -/
def capPoolSize : Nat := 256

/-- Tokens a task can hold. -/
def maxCapsPerTask : Nat := 64

/-- The token that stands for no capability. -/
def capInvalid : UInt64 := 0

/-- The last type of capability. -/
def capTypeTask : UInt32 := 6

/-- The right to pass a capability on. -/
def capRightSend : UInt64 := 8

/-- The right to make child capabilities. -/
def capRightDerive : UInt64 := 16

/-- The right to revoke. -/
def capRightRevoke : UInt64 := 32

/-- All rights. -/
def capRightsAll : UInt64 := 0x3F

/-- The errors of the capability calls. -/
inductive Errno where
  | einval
  | eperm
  | enomem
  deriving DecidableEq, Repr

/-- An entry of the global pool. -/
structure Entry where
  token : UInt64
  type : UInt32
  ownerPid : UInt32
  rights : UInt64
  object : UInt64
  valid : Bool
  deriving DecidableEq

/-- The pool, the tables and the salt of the tokens. -/
structure State where
  pool : Fin capPoolSize → Entry
  table : Fin schedMaxTasks → Fin maxCapsPerTask → UInt64
  salt : UInt64

/-- A call with its outcome and the state it leaves. -/
abbrev Call (α : Type) := State → Except Errno α × State

/-- A token from a reading of the cycle counter. -/
def capMakeToken (salt : UInt64) (pid : UInt32) (cntpct : UInt64) : UInt64 :=
  (cntpct ^^^ (pid.toUInt64 <<< 32) ^^^ salt ^^^ pid.toUInt64) &&& 0x7FFFFFFFFFFFFFFF

/-- The table that a task uses. -/
def tableOf (pid : UInt32) : Fin schedMaxTasks := ⟨pid.toNat % schedMaxTasks, Nat.mod_lt _ (by decide)⟩

/-- The first valid entry with a token. -/
def capPoolFind (s : State) (token : UInt64) : Option (Fin capPoolSize) :=
  (List.finRange capPoolSize).find? fun i => (s.pool i).valid && (s.pool i).token == token

/-- Whether the table of a task has a token. -/
def capTableHas (s : State) (pid : UInt32) (token : UInt64) : Bool :=
  (List.finRange maxCapsPerTask).any fun k => s.table (tableOf pid) k == token

/-- Puts a token into the first free place of the table of a task. -/
def capTableAdd (pid : UInt32) (token : UInt64) (s : State) : Option State :=
  ((List.finRange maxCapsPerTask).find? fun k => s.table (tableOf pid) k == capInvalid).map fun k =>
    { s with
      table := Function.update s.table (tableOf pid) (Function.update (s.table (tableOf pid)) k token) }

/-- The pool, the tables and the salt at boot. -/
def capInit (cntpct : UInt64) : State where
  pool _ := ⟨0, 0, 0, 0, 0, false⟩
  table _ _ := capInvalid
  salt := cntpct ^^^ 0xDEADBEEFCAFEBABE

/-- The token of a new capability, from one reading of the counter or two. -/
def newToken (salt : UInt64) (pid : UInt32) (first second : UInt64) : UInt64 :=
  if capMakeToken salt pid first = capInvalid then capMakeToken salt pid second ||| 1
  else capMakeToken salt pid first

/-- The entry of a new capability. -/
def newEntry (token : UInt64) (type pid : UInt32) (rights object : UInt64) : Entry :=
  ⟨token, type, pid, rights &&& capRightsAll, object, true⟩

/-- The first free slot of the pool. -/
def freeSlot (s : State) : Option (Fin capPoolSize) := (List.finRange capPoolSize).find? fun i => !(s.pool i).valid

/-- Allocates a capability, and gives the invalid token if there is no room for it. -/
def capAllocKernel (pid : UInt32) (type : UInt32) (rights object first second : UInt64) (s : State) :
    UInt64 × State :=
  match freeSlot s with
  | none => (capInvalid, s)
  | some i =>
    let token := newToken s.salt pid first second
    let entry := newEntry token type pid rights object
    match capTableAdd pid token { s with pool := Function.update s.pool i entry } with
    | none => (capInvalid, { s with pool := Function.update s.pool i { entry with valid := false } })
    | some s' => (token, s')

/-- Checks a token's type and rights. -/
def capValidate (s : State) (token : UInt64) (type : UInt32) (required : UInt64) : Except Errno Unit :=
  match capPoolFind s token with
  | none => .error .eperm
  | some i =>
    if (s.pool i).type ≠ type then .error .eperm
    else if (s.pool i).rights &&& required ≠ required then .error .eperm
    else .ok ()

/-- Allocates a capability for the calling task. -/
def sysCapAlloc (pid : UInt32) (type : UInt32) (rights first second : UInt64) : Call UInt64 := fun s =>
  if type > capTypeTask then (.error .einval, s)
  else
    let (token, s') := capAllocKernel pid type (rights &&& capRightsAll) 0 first second s
    if token = capInvalid then (.error .enomem, s') else (.ok token, s')

/-- Gives a token that the caller holds to another task as well. -/
def sysCapSend (pid dstPid : UInt32) (token : UInt64) : Call Unit := fun s =>
  match capPoolFind s token with
  | none => (.error .einval, s)
  | some i =>
    if !capTableHas s pid token then (.error .eperm, s)
    else if (s.pool i).rights &&& capRightSend = 0 then (.error .eperm, s)
    else
      match capTableAdd dstPid token s with
      | none => (.error .enomem, s)
      | some s' => (.ok (), s')

/-- Invalidates a capability of the caller and takes its token out of all tables. -/
def sysCapRevoke (pid : UInt32) (token : UInt64) : Call Unit := fun s =>
  match capPoolFind s token with
  | none => (.error .einval, s)
  | some i =>
    if !capTableHas s pid token then (.error .eperm, s)
    else if (s.pool i).ownerPid ≠ pid then (.error .eperm, s)
    else if (s.pool i).rights &&& capRightRevoke = 0 then (.error .eperm, s)
    else
      (.ok (), { s with
        pool := Function.update s.pool i { s.pool i with valid := false }
        table := fun t k => if s.table t k = token then capInvalid else s.table t k })

/-- Makes a child of a capability whose token the caller holds. -/
def sysCapDerive (pid : UInt32) (src mask first second : UInt64) : Call UInt64 := fun s =>
  match capPoolFind s src with
  | none => (.error .einval, s)
  | some i =>
    if !capTableHas s pid src then (.error .eperm, s)
    else if (s.pool i).rights &&& capRightDerive = 0 then (.error .eperm, s)
    else
      let entry := s.pool i
      let (token, s') := capAllocKernel pid entry.type (entry.rights &&& (mask &&& capRightsAll)) entry.object
        first second s
      if token = capInvalid then (.error .enomem, s') else (.ok token, s')

section

variable {s s' : State} {pid : UInt32} {token : UInt64} {i : Fin capPoolSize}

theorem capPoolFind_some (found : capPoolFind s token = some i) : (s.pool i).valid = true ∧ (s.pool i).token = token := by
  have holds := List.find?_some found
  simpa using holds

theorem capPoolFind_none (missing : capPoolFind s token = none) (valid : (s.pool i).valid = true) :
    (s.pool i).token ≠ token := by
  have none := List.find?_eq_none.mp missing i (List.mem_finRange i)
  simpa [valid] using none

theorem capTableHas_iff : capTableHas s pid token = true ↔ ∃ k, s.table (tableOf pid) k = token := by
  simp [capTableHas]

theorem capTableAdd_some (added : capTableAdd pid token s = some s') :
    ∃ k, s.table (tableOf pid) k = capInvalid ∧ s' = { s with
      table := Function.update s.table (tableOf pid) (Function.update (s.table (tableOf pid)) k token) } := by
  unfold capTableAdd at added
  cases place : (List.finRange maxCapsPerTask).find? fun k => s.table (tableOf pid) k == capInvalid with
  | none => simp [place] at added
  | some k =>
    have free := List.find?_some place
    rw [place, Option.map_some, Option.some.injEq] at added
    exact ⟨k, by simpa using free, added.symm⟩

theorem mem_capTableAdd (added : capTableAdd pid token s = some s') {t : Fin schedMaxTasks} {k : Fin maxCapsPerTask} :
    s'.table t k = s.table t k ∨ (t = tableOf pid ∧ s'.table t k = token) := by
  obtain ⟨place, -, rfl⟩ := capTableAdd_some added
  by_cases table : t = tableOf pid
  · subst table
    by_cases same : k = place
    · subst same
      right
      simp
    · left
      simp [same]
  · left
    simp [table]

theorem newToken_ne {salt first second : UInt64} : newToken salt pid first second ≠ capInvalid := by
  unfold newToken
  split
  · intro zero
    -- The lowest bit of the second attempt is set.
    have bit : (capMakeToken salt pid second ||| 1) &&& 1 = 1 := by
      rw [← UInt64.toBitVec_inj]
      simp only [UInt64.toBitVec_and, UInt64.toBitVec_or]
      generalize (capMakeToken salt pid second).toBitVec = bits
      ext n
      simp
      grind
    rw [zero] at bit
    exact absurd bit (by decide)
  · assumption

theorem capAllocKernel_cases (type : UInt32) (rights object first second : UInt64) (s : State) :
    (∃ pool, (∀ i, (pool i).valid = true → pool i = s.pool i) ∧ (∀ i, (s.pool i).valid = true → pool i = s.pool i) ∧
      capAllocKernel pid type rights object first second s = (capInvalid, { s with pool := pool })) ∨
    ∃ i k, freeSlot s = some i ∧ (s.pool i).valid = false ∧ s.table (tableOf pid) k = capInvalid ∧
      capAllocKernel pid type rights object first second s =
        (newToken s.salt pid first second, { s with
          pool := Function.update s.pool i (newEntry (newToken s.salt pid first second) type pid rights object)
          table := Function.update s.table (tableOf pid)
            (Function.update (s.table (tableOf pid)) k (newToken s.salt pid first second)) }) := by
  unfold capAllocKernel
  cases free : freeSlot s with
  | none => exact .inl ⟨s.pool, fun _ _ => rfl, fun _ _ => rfl, rfl⟩
  | some i =>
    have invalid : (s.pool i).valid = false := by simpa using List.find?_some free
    dsimp only
    cases added : capTableAdd pid (newToken s.salt pid first second)
        { s with pool := Function.update s.pool i (newEntry (newToken s.salt pid first second) type pid rights object) } with
    | none =>
      refine .inl ⟨_, fun j valid => ?_, fun j valid => ?_, rfl⟩
      · by_cases same : j = i
        · subst same
          simp at valid
        · simp [same]
      · by_cases same : j = i
        · subst same
          rw [invalid] at valid
          cases valid
        · simp [same]
    | some s' =>
      obtain ⟨k, place, rfl⟩ := capTableAdd_some added
      exact .inr ⟨i, k, rfl, invalid, place, rfl⟩

/-- A pool with the same valid entries. -/
def SameValid (pool pool' : Fin capPoolSize → Entry) : Prop :=
  (∀ i, (pool' i).valid = true → pool' i = pool i) ∧ ∀ i, (pool i).valid = true → pool' i = pool i

theorem sameValid_refl (pool : Fin capPoolSize → Entry) : SameValid pool pool := ⟨fun _ _ => rfl, fun _ _ => rfl⟩

/-- The state with a new capability in a slot and its token in a place of the owner's table. -/
def State.create (s : State) (i : Fin capPoolSize) (k : Fin maxCapsPerTask) (entry : Entry) : State :=
  { s with
    pool := Function.update s.pool i entry
    table := Function.update s.table (tableOf entry.ownerPid)
      (Function.update (s.table (tableOf entry.ownerPid)) k entry.token) }

/-- A call that failed, with no valid entry and no table changed. -/
def Failed {α : Type} (s : State) (result : Except Errno α × State) : Prop :=
  ∃ error pool, SameValid s.pool pool ∧ result = (.error error, { s with pool := pool })

theorem failed_same {α : Type} (s : State) (error : Errno) : Failed s ((.error error, s) : Except Errno α × State) :=
  ⟨error, s.pool, sameValid_refl s.pool, rfl⟩

theorem capAllocKernel_result (type : UInt32) (rights object first second : UInt64) (s : State)
    {result : Except Errno UInt64 × State}
    (called : result = (let (token, s') := capAllocKernel pid type rights object first second s
      if token = capInvalid then (.error .enomem, s') else (.ok token, s'))) :
    Failed s result ∨ ∃ i k, freeSlot s = some i ∧ (s.pool i).valid = false ∧
      result = (.ok (newToken s.salt pid first second),
        s.create i k (newEntry (newToken s.salt pid first second) type pid rights object)) := by
  rcases capAllocKernel_cases type rights object first second s with
    ⟨pool, back, forth, made⟩ | ⟨i, k, slot, free, -, made⟩
  · rw [made] at called
    exact .inl ⟨.enomem, pool, ⟨back, forth⟩, called⟩
  · rw [made] at called
    dsimp only at called
    rw [if_neg newToken_ne] at called
    exact .inr ⟨i, k, slot, free, called⟩

theorem sysCapAlloc_cases (type : UInt32) (rights first second : UInt64) (s : State) :
    Failed s (sysCapAlloc pid type rights first second s) ∨ ∃ i k, freeSlot s = some i ∧ (s.pool i).valid = false ∧
      sysCapAlloc pid type rights first second s = (.ok (newToken s.salt pid first second),
        s.create i k (newEntry (newToken s.salt pid first second) type pid (rights &&& capRightsAll) 0)) := by
  by_cases known : type > capTypeTask
  · rw [sysCapAlloc, if_pos known]
    exact .inl (failed_same s .einval)
  · apply capAllocKernel_result type (rights &&& capRightsAll) 0 first second s
    rw [sysCapAlloc, if_neg known]

theorem sysCapDerive_cases (src mask first second : UInt64) (s : State) :
    Failed s (sysCapDerive pid src mask first second s) ∨
      ∃ j i k, capPoolFind s src = some j ∧ capTableHas s pid src = true ∧ freeSlot s = some i ∧ (s.pool i).valid = false ∧
        sysCapDerive pid src mask first second s = (.ok (newToken s.salt pid first second),
          s.create i k (newEntry (newToken s.salt pid first second) (s.pool j).type pid
            ((s.pool j).rights &&& (mask &&& capRightsAll)) (s.pool j).object)) := by
  rw [sysCapDerive]
  cases found : capPoolFind s src with
  | none => exact .inl (failed_same s .einval)
  | some j =>
    dsimp only
    by_cases held : capTableHas s pid src = true
    · by_cases allowed : (s.pool j).rights &&& capRightDerive = 0
      · rw [if_neg (by simp [held]), if_pos allowed]
        exact .inl (failed_same s .eperm)
      · rw [if_neg (by simp [held]), if_neg allowed]
        rcases capAllocKernel_result (s.pool j).type ((s.pool j).rights &&& (mask &&& capRightsAll)) (s.pool j).object
          first second s rfl with failed | ⟨i, k, slot, free, made⟩
        · exact .inl failed
        · exact .inr ⟨j, i, k, rfl, held, slot, free, made⟩
    · rw [if_pos (by simpa using held)]
      exact .inl (failed_same s .eperm)

theorem sysCapSend_cases (dstPid : UInt32) (token : UInt64) (s : State) :
    Failed s (sysCapSend pid dstPid token s) ∨
      ∃ i s', capPoolFind s token = some i ∧ capTableHas s pid token = true ∧ capTableAdd dstPid token s = some s' ∧
        sysCapSend pid dstPid token s = (.ok (), s') := by
  rw [sysCapSend]
  cases found : capPoolFind s token with
  | none => exact .inl (failed_same s .einval)
  | some i =>
    dsimp only
    by_cases held : capTableHas s pid token = true
    · by_cases allowed : (s.pool i).rights &&& capRightSend = 0
      · rw [if_neg (by simp [held]), if_pos allowed]
        exact .inl (failed_same s .eperm)
      · rw [if_neg (by simp [held]), if_neg allowed]
        cases added : capTableAdd dstPid token s with
        | none => exact .inl (failed_same s .enomem)
        | some s' => exact .inr ⟨i, s', rfl, held, rfl, rfl⟩
    · rw [if_pos (by simpa using held)]
      exact .inl (failed_same s .eperm)

theorem sysCapRevoke_cases (token : UInt64) (s : State) :
    Failed s (sysCapRevoke pid token s) ∨
      ∃ i, capPoolFind s token = some i ∧ sysCapRevoke pid token s = (.ok (), { s with
        pool := Function.update s.pool i { s.pool i with valid := false }
        table := fun t k => if s.table t k = token then capInvalid else s.table t k }) := by
  rw [sysCapRevoke]
  cases found : capPoolFind s token with
  | none => exact .inl (failed_same s .einval)
  | some i =>
    dsimp only
    split
    · exact .inl (failed_same s .eperm)
    · split
      · exact .inl (failed_same s .eperm)
      · split
        · exact .inl (failed_same s .eperm)
        · exact .inr ⟨i, rfl, rfl⟩

end

end Enlil.Cap
