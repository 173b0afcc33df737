import Enlil.Lib.Run
import Enlil.Cap.Table

/-! Tokens stay distinct and revoked ones stay dead as long as the counter gives fresh tokens. -/

namespace Enlil.Cap

open Sched (schedMaxTasks)

/-- A call of a task, with what the cycle counter shows where it may be read. -/
inductive Op where
  | alloc (pid type : UInt32) (rights first second : UInt64)
  | derive (pid : UInt32) (src mask first second : UInt64)
  | send (pid dstPid : UInt32) (token : UInt64)
  | revoke (pid : UInt32) (token : UInt64)
  | exit (pid : UInt32)

/-- The capabilities with the last reading of the counter and the tokens that were revoked. -/
structure World where
  caps : State
  counter : UInt64
  revoked : List UInt64

/-- The last reading of the counter that a new token takes. -/
def lastReading (salt : UInt64) (pid : UInt32) (first second : UInt64) : UInt64 :=
  if capMakeToken salt pid first = capInvalid then second else first

/-- Makes a call. -/
def exec (w : World) : Op → Except Empty World
  | .alloc pid type rights first second =>
    .ok { w with
      caps := (sysCapAlloc pid type rights first second w.caps).2
      counter := lastReading w.caps.salt pid first second }
  | .derive pid src mask first second =>
    .ok { w with
      caps := (sysCapDerive pid src mask first second w.caps).2
      counter := lastReading w.caps.salt pid first second }
  | .send pid dstPid token => .ok { w with caps := (sysCapSend pid dstPid token w.caps).2 }
  | .revoke pid token =>
    match sysCapRevoke pid token w.caps with
    | (.ok _, s) => .ok { w with caps := s, revoked := token :: w.revoked }
    | (.error _, s) => .ok { w with caps := s }
  -- A task that exits leaves its table as it is.
  | .exit _ => .ok w

/-- The counter never goes back. -/
def Ticking (w : World) : Op → Prop
  | .alloc _ _ _ first second => w.counter ≤ first ∧ first ≤ second
  | .derive _ _ _ first second => w.counter ≤ first ∧ first ≤ second
  | _ => True

/-- A token is that of no valid entry and was never revoked. -/
def Unused (w : World) (token : UInt64) : Prop :=
  (∀ i, (w.caps.pool i).valid = true → (w.caps.pool i).token ≠ token) ∧ token ∉ w.revoked

/-- The counter makes an unused token wherever one is needed. -/
def Fresh (w : World) : Op → Prop
  | .alloc pid _ _ first second => Unused w (newToken w.caps.salt pid first second)
  | .derive pid _ _ first second => Unused w (newToken w.caps.salt pid first second)
  | _ => True

/-- Tokens name valid entries one to one, and revoked tokens are gone. -/
structure Exact (w : World) : Prop where
  distinct : ∀ i j, (w.caps.pool i).valid = true → (w.caps.pool j).valid = true →
    (w.caps.pool i).token = (w.caps.pool j).token → i = j
  real : ∀ i, (w.caps.pool i).valid = true → (w.caps.pool i).token ≠ capInvalid
  named : ∀ t k, w.caps.table t k ≠ capInvalid →
    ∃! i, (w.caps.pool i).valid = true ∧ (w.caps.pool i).token = w.caps.table t k
  gone : ∀ token ∈ w.revoked, token ≠ capInvalid ∧ (∀ t k, w.caps.table t k ≠ token) ∧
    ∀ type required, capValidate w.caps token type required = .error .eperm

theorem capValidate_missing {s : State} {token : UInt64}
    (missing : ∀ i, (s.pool i).valid = true → (s.pool i).token ≠ token) (type : UInt32) (required : UInt64) :
    capValidate s token type required = .error .eperm := by
  unfold capValidate
  cases found : capPoolFind s token with
  | none => rfl
  | some i =>
    obtain ⟨valid, same⟩ := capPoolFind_some found
    exact absurd same (missing i valid)

theorem missing_of_capValidate {s : State} {token : UInt64}
    (fails : ∀ type required, capValidate s token type required = .error .eperm) (i : Fin capPoolSize)
    (valid : (s.pool i).valid = true) : (s.pool i).token ≠ token := by
  intro same
  cases found : capPoolFind s token with
  | none => exact capPoolFind_none found valid same
  | some j =>
    have passes := fails (s.pool j).type 0
    simp [capValidate, found] at passes

section

variable {w : World} {s : State} {op : Op}

theorem Exact.congr (exact_ : Exact w) {pool : Fin capPoolSize → Entry}
    {table : Fin schedMaxTasks → Fin maxCapsPerTask → UInt64} {counter : UInt64}
    (valid : SameValid w.caps.pool pool)
    (tokens : ∀ t k, table t k = capInvalid ∨ ∃ t' k', table t k = w.caps.table t' k') :
    Exact { w with caps := { w.caps with pool := pool, table := table }, counter := counter } := by
  obtain ⟨back, forth⟩ := valid
  have same : ∀ i, (pool i).valid = true ↔ (w.caps.pool i).valid = true := by
    intro i
    constructor
    · intro valid
      rw [← back i valid]
      exact valid
    · intro valid
      rw [forth i valid]
      exact valid
  refine ⟨fun i j valid valid' equal => ?_, fun i valid => ?_, fun t k real => ?_, fun token old => ?_⟩
  · dsimp only at valid valid' equal
    rw [back i valid, back j valid'] at equal
    exact exact_.distinct i j ((same i).mp valid) ((same j).mp valid') equal
  · show (pool i).token ≠ capInvalid
    rw [back i valid]
    exact exact_.real i ((same i).mp valid)
  · rcases tokens t k with invalid | ⟨t', k', equal⟩
    · exact absurd invalid real
    · dsimp only at real ⊢
      rw [equal] at real ⊢
      obtain ⟨i, ⟨valid, token⟩, only⟩ := exact_.named t' k' real
      refine ⟨i, ⟨(same i).mpr valid, ?_⟩, fun j named => ?_⟩
      · rw [forth i valid]
        exact token
      · obtain ⟨valid', token'⟩ := named
        rw [back j valid'] at token'
        exact only j ⟨(same j).mp valid', token'⟩
  · obtain ⟨real, absent, dead⟩ := exact_.gone token old
    have missing := missing_of_capValidate dead
    refine ⟨real, fun t k => ?_, capValidate_missing fun i valid => ?_⟩
    · show table t k ≠ token
      rcases tokens t k with invalid | ⟨t', k', equal⟩
      · rw [invalid]
        exact real.symm
      · rw [equal]
        exact absent t' k'
    · show (pool i).token ≠ token
      rw [back i valid]
      exact missing i ((same i).mp valid)

theorem Exact.create (exact_ : Exact w) {i : Fin capPoolSize} {k : Fin maxCapsPerTask} {entry : Entry} {counter : UInt64}
    (free : (w.caps.pool i).valid = false) (valid : entry.valid = true) (real : entry.token ≠ capInvalid)
    (unused : Unused w entry.token) : Exact { w with caps := w.caps.create i k entry, counter := counter } := by
  rw [State.create]
  generalize tableOf entry.ownerPid = t
  obtain ⟨absent, never⟩ := unused
  -- An old valid entry is in another slot and has another token.
  have old : ∀ j, (w.caps.pool j).valid = true → j ≠ i := by
    intro j valid' same
    rw [same, free] at valid'
    cases valid'
  refine ⟨fun a b valid' valid'' equal => ?_, fun a valid' => ?_, fun t' k' some => ?_, fun token revoked => ?_⟩
  · dsimp only at valid' valid'' equal
    by_cases first : a = i
    · by_cases second : b = i
      · rw [first, second]
      · subst first
        rw [Function.update_of_ne second] at valid'' equal
        rw [Function.update_self] at equal
        exact absurd equal.symm (absent b valid'')
    · rw [Function.update_of_ne first] at valid' equal
      by_cases second : b = i
      · subst second
        rw [Function.update_self] at equal
        exact absurd equal (absent a valid')
      · rw [Function.update_of_ne second] at valid'' equal
        exact exact_.distinct a b valid' valid'' equal
  · dsimp only at valid' ⊢
    by_cases first : a = i
    · subst first
      rw [Function.update_self]
      exact real
    · rw [Function.update_of_ne first] at valid' ⊢
      exact exact_.real a valid'
  · dsimp only at some ⊢
    -- A place of a table holds the new token or what it held before.
    have place : Function.update w.caps.table t (Function.update (w.caps.table t) k entry.token) t' k' = entry.token ∨
        Function.update w.caps.table t (Function.update (w.caps.table t) k entry.token) t' k' = w.caps.table t' k' := by
      by_cases table : t' = t
      · subst table
        by_cases same : k' = k
        · subst same
          left
          simp
        · right
          simp [same]
      · right
        simp [table]
    rcases place with new | before
    · rw [new]
      refine ⟨i, ⟨by rw [Function.update_self]; exact valid, by rw [Function.update_self]⟩, fun j named => ?_⟩
      by_contra other
      obtain ⟨valid', token⟩ := named
      rw [Function.update_of_ne other] at valid' token
      exact absent j valid' token
    · rw [before] at some ⊢
      obtain ⟨j, ⟨valid', token⟩, only⟩ := exact_.named t' k' some
      refine ⟨j, ⟨?_, ?_⟩, fun a named => ?_⟩
      · rw [Function.update_of_ne (old j valid')]
        exact valid'
      · rw [Function.update_of_ne (old j valid')]
        exact token
      · obtain ⟨valid'', token'⟩ := named
        by_cases first : a = i
        · subst first
          rw [Function.update_self] at token'
          exact absurd (token.trans token'.symm) (absent j valid')
        · rw [Function.update_of_ne first] at valid'' token'
          exact only a ⟨valid'', token'⟩
  · obtain ⟨notZero, gone, dead⟩ := exact_.gone token revoked
    have missing := missing_of_capValidate dead
    have other : entry.token ≠ token := by
      intro same
      rw [same] at never
      exact never revoked
    refine ⟨notZero, fun t' k' => ?_, capValidate_missing fun a valid' => ?_⟩
    · dsimp only
      by_cases table : t' = t
      · subst table
        by_cases same : k' = k
        · subst same
          simpa using other
        · simpa [same] using gone t' k'
      · simpa [table] using gone t' k'
    · dsimp only at valid' ⊢
      by_cases first : a = i
      · subst first
        rw [Function.update_self]
        exact other
      · rw [Function.update_of_ne first] at valid' ⊢
        exact missing a valid'

theorem Exact.revoke (exact_ : Exact w) {token : UInt64} {i : Fin capPoolSize} (found : capPoolFind w.caps token = some i) :
    Exact { w with
      caps := { w.caps with
        pool := Function.update w.caps.pool i { w.caps.pool i with valid := false }
        table := fun t k => if w.caps.table t k = token then capInvalid else w.caps.table t k }
      revoked := token :: w.revoked } := by
  obtain ⟨valid, named⟩ := capPoolFind_some found
  -- What is still valid is another entry, and it was valid before.
  have back : ∀ j, (Function.update w.caps.pool i { w.caps.pool i with valid := false } j).valid = true →
      j ≠ i ∧ (w.caps.pool j).valid = true := by
    intro j valid'
    by_cases same : j = i
    · subst same
      simp at valid'
    · rw [Function.update_of_ne same] at valid'
      exact ⟨same, valid'⟩
  refine ⟨fun a b valid' valid'' equal => ?_, fun a valid' => ?_, fun t k some => ?_, fun other revoked => ?_⟩
  · dsimp only at valid' valid'' equal
    obtain ⟨first, valid'⟩ := back a valid'
    obtain ⟨second, valid''⟩ := back b valid''
    rw [Function.update_of_ne first, Function.update_of_ne second] at equal
    exact exact_.distinct a b valid' valid'' equal
  · dsimp only at valid' ⊢
    obtain ⟨first, valid'⟩ := back a valid'
    rw [Function.update_of_ne first]
    exact exact_.real a valid'
  · dsimp only at some ⊢
    by_cases gone : w.caps.table t k = token
    · rw [if_pos gone] at some
      exact absurd rfl some
    · rw [if_neg gone] at some ⊢
      obtain ⟨j, ⟨valid', token'⟩, only⟩ := exact_.named t k some
      have different : j ≠ i := by
        intro same
        rw [same, named] at token'
        exact gone token'.symm
      refine ⟨j, ⟨?_, ?_⟩, fun a named' => ?_⟩
      · rw [Function.update_of_ne different]
        exact valid'
      · rw [Function.update_of_ne different]
        exact token'
      · obtain ⟨first, -⟩ := back a named'.1
        dsimp only at named'
        rw [Function.update_of_ne first] at named'
        exact only a named'
  · rcases List.mem_cons.mp revoked with rfl | before
    · have notZero : other ≠ capInvalid := by
        rw [← named]
        exact exact_.real i valid
      refine ⟨notZero, fun t k => ?_, capValidate_missing fun a valid' => ?_⟩
      · dsimp only
        split
        · exact notZero.symm
        · assumption
      · dsimp only at valid' ⊢
        obtain ⟨first, valid'⟩ := back a valid'
        rw [Function.update_of_ne first]
        intro equal
        exact first (exact_.distinct a i valid' valid (equal.trans named.symm))
    · obtain ⟨notZero, gone, dead⟩ := exact_.gone other before
      have missing := missing_of_capValidate dead
      refine ⟨notZero, fun t k => ?_, capValidate_missing fun a valid' => ?_⟩
      · dsimp only
        split
        · exact notZero.symm
        · exact gone t k
      · dsimp only at valid' ⊢
        obtain ⟨first, valid'⟩ := back a valid'
        rw [Function.update_of_ne first]
        exact missing a valid'

theorem Exact.failed {α : Type} (exact_ : Exact w) {result : Except Errno α × State} (failed : Failed w.caps result)
    (counter : UInt64) : Exact { w with caps := result.2, counter := counter } := by
  obtain ⟨error, pool, valid, rfl⟩ := failed
  exact exact_.congr valid fun t k => .inr ⟨t, k, rfl⟩

theorem Exact.exec {w' : World} (exact_ : Exact w) (fresh : Fresh w op) (done : Cap.exec w op = .ok w') : Exact w' := by
  cases op with
  | alloc pid type rights first second =>
    cases done
    rcases sysCapAlloc_cases type rights first second w.caps with failed | ⟨i, k, -, free, made⟩
    · exact exact_.failed failed _
    · rw [made]
      exact exact_.create free rfl newToken_ne fresh
  | derive pid src mask first second =>
    cases done
    rcases sysCapDerive_cases src mask first second w.caps with failed | ⟨j, i, k, -, -, -, free, made⟩
    · exact exact_.failed failed _
    · rw [made]
      exact exact_.create free rfl newToken_ne fresh
  | send pid dstPid token =>
    cases done
    rcases sysCapSend_cases dstPid token w.caps with failed | ⟨i, s', -, held, added, sent⟩
    · exact exact_.failed failed _
    · rw [sent]
      obtain ⟨k, holds⟩ := capTableHas_iff.mp held
      have tokens : ∀ t k', s'.table t k' = w.caps.table t k' ∨ (t = tableOf dstPid ∧ s'.table t k' = token) :=
        fun t k' => mem_capTableAdd added
      obtain ⟨place, -, rfl⟩ := capTableAdd_some added
      apply exact_.congr (sameValid_refl w.caps.pool)
      intro t k'
      rcases tokens t k' with before | ⟨-, new⟩
      · exact .inr ⟨t, k', before⟩
      · exact .inr ⟨tableOf pid, k, new.trans holds.symm⟩
  | revoke pid token =>
    rw [Cap.exec] at done
    rcases sysCapRevoke_cases token w.caps with ⟨error, pool, valid, failed⟩ | ⟨i, found, revoked⟩
    · rw [failed] at done
      cases done
      exact exact_.congr valid fun t k => .inr ⟨t, k, rfl⟩
    · rw [revoked] at done
      cases done
      exact exact_.revoke found
  | exit pid =>
    cases done
    exact exact_

end

/-- The capabilities at boot. -/
def bootWorld (cntpct : UInt64) : World := ⟨capInit cntpct, cntpct, []⟩

theorem exact_boot (cntpct : UInt64) : Exact (bootWorld cntpct) where
  distinct _ _ valid := by cases valid
  real _ valid := by cases valid
  named _ _ some := absurd rfl some
  gone _ member := by cases member

/--
In every run with readings that never go back and that make unused tokens, tokens name valid entries one to one, and
revoked tokens are gone for good.
-/
theorem run_tokens_exact {cntpct : UInt64} {w : World}
    (run : Run exec (fun w op => Ticking w op ∧ Fresh w op) (bootWorld cntpct) w) : Exact w :=
  run.invariant (exact_boot cntpct) fun exact_ allowed done => exact_.exec allowed.2 done

instance (w : World) (op : Op) : Decidable (Ticking w op) := by
  cases op <;> unfold Ticking <;> infer_instance

instance (w : World) (token : UInt64) : Decidable (Unused w token) := by
  unfold Unused
  infer_instance

instance (w : World) (op : Op) : Decidable (Fresh w op) := by
  cases op <;> unfold Fresh <;> infer_instance

/-- A task allocates a capability, derives a child of it, sends the child away and revokes it. -/
def aroundRun : List Op :=
  [.alloc 5 1 0x3F 100 100, .derive 5 (newToken (capInit 7).salt 5 100 100) 0x38 101 101,
    .send 5 6 (newToken (capInit 7).salt 5 101 101), .revoke 5 (newToken (capInit 7).salt 5 101 101)]

/-- The run around revokes a token, and its tokens are exact. -/
theorem run_tokens_exact_around : ∃ w, Run exec (fun w op => Ticking w op ∧ Fresh w op) (bootWorld 7) w ∧
    w.revoked.length = 1 ∧ Exact w := by
  have found : (runList exec (fun w op => Ticking w op ∧ Fresh w op) (bootWorld 7) aroundRun).any
      (fun w => w.revoked.length == 1) = true := by decide +kernel
  obtain ⟨w, run, seen⟩ := runList_any found
  exact ⟨w, run, by simpa using seen, run_tokens_exact run⟩

/-- Two valid entries have the same token. -/
def sameToken (w : World) (i j : Fin capPoolSize) : Bool :=
  (w.caps.pool i).valid && (w.caps.pool j).valid && (w.caps.pool i).token == (w.caps.pool j).token

/-- Two allocations of one task at the same reading of the counter make two valid entries with one token. -/
theorem equal_readings_same_token : ∃ w, Run exec Ticking (bootWorld 7) w ∧ ¬ Exact w := by
  have found : (runList exec Ticking (bootWorld 7) [.alloc 5 1 0x3F 100 100, .alloc 5 1 0x3F 100 100]).any
      (fun w => sameToken w ⟨0, by decide⟩ ⟨1, by decide⟩) = true := by decide +kernel
  obtain ⟨w, run, seen⟩ := runList_any found
  refine ⟨w, run, fun exact_ => ?_⟩
  simp only [sameToken, Bool.and_eq_true, beq_iff_eq] at seen
  exact absurd (exact_.distinct _ _ seen.1.1 seen.1.2 seen.2) (by decide)

end Enlil.Cap
