import Enlil.Cap.Tokens

/-! A task holds what it was given as long as no other pid uses its table, and rights shrink along derivations. -/

namespace Enlil.Cap

open Sched (schedMaxTasks)

/-- A call that gave a token to a task. -/
inductive Event where
  | allocated (pid : UInt32) (token : UInt64)
  | derived (pid : UInt32) (src token : UInt64)
  | sent (pid dstPid : UInt32) (token : UInt64)

/-- A capability as it was made, with the one it was derived from. -/
structure Birth where
  rights : UInt64
  parent : Option Nat

/-- The capabilities with the number of each entry's capability, all capabilities ever made, and who gave tokens to whom. -/
structure Chronicle where
  caps : State
  serials : Fin capPoolSize → Nat
  births : List Birth
  history : List Event

/-- A task allocated a token, derived it from one it was entitled to, or was sent it by a task entitled to it. -/
def Entitled (pid : UInt32) (token : UInt64) : List Event → Prop
  | [] => False
  | .allocated pid' token' :: before => (pid = pid' ∧ token = token') ∨ Entitled pid token before
  | .derived pid' src token' :: before =>
    (pid = pid' ∧ token = token' ∧ Entitled pid' src before) ∨ Entitled pid token before
  | .sent sender pid' token' :: before =>
    (pid = pid' ∧ token = token' ∧ Entitled sender token before) ∨ Entitled pid token before

/-- The chronicle after a capability was made in the first free slot. -/
def Chronicle.bear (c : Chronicle) (s : State) (parent : Option Nat) (event : Event) : Chronicle :=
  match freeSlot c.caps with
  | some i => ⟨s, Function.update c.serials i c.births.length, c.births ++ [⟨(s.pool i).rights, parent⟩], event :: c.history⟩
  | none => { c with caps := s }

/-- Makes a call and writes down what it gave. -/
def execRecorded (c : Chronicle) : Op → Except Empty Chronicle
  | .alloc pid type rights first second =>
    match sysCapAlloc pid type rights first second c.caps with
    | (.ok token, s) => .ok (c.bear s none (.allocated pid token))
    | (.error _, s) => .ok { c with caps := s }
  | .derive pid src mask first second =>
    match sysCapDerive pid src mask first second c.caps with
    | (.ok token, s) => .ok (c.bear s ((capPoolFind c.caps src).map c.serials) (.derived pid src token))
    | (.error _, s) => .ok { c with caps := s }
  | .send pid dstPid token =>
    match sysCapSend pid dstPid token c.caps with
    | (.ok _, s) => .ok { c with caps := s, history := .sent pid dstPid token :: c.history }
    | (.error _, s) => .ok { c with caps := s }
  | .revoke pid token => .ok { c with caps := (sysCapRevoke pid token c.caps).2 }
  | .exit _ => .ok c

/-- The pids that a call names. -/
def Among (pids : Set UInt32) : Op → Prop
  | .alloc pid .. => pid ∈ pids
  | .derive pid .. => pid ∈ pids
  | .send pid dstPid _ => pid ∈ pids ∧ dstPid ∈ pids
  | .revoke pid _ => pid ∈ pids
  | .exit pid => pid ∈ pids

/-- No two pids use the same table. -/
def Apart (pids : Set UInt32) : Prop := ∀ p ∈ pids, ∀ q ∈ pids, tableOf p = tableOf q → p = q

def Within (rights rights' : UInt64) : Prop := rights &&& rights' = rights

/-- One capability was derived from another. -/
def ChildOf (births : List Birth) (child parent : Nat) : Prop := ∃ birth, births[child]? = some birth ∧ birth.parent = some parent

/-- Tasks hold only what they are entitled to, and rights shrink along every chain of derivations. -/
structure Confined (pids : Set UInt32) (c : Chronicle) : Prop where
  held : ∀ pid ∈ pids, ∀ k, c.caps.table (tableOf pid) k ≠ capInvalid →
    Entitled pid (c.caps.table (tableOf pid) k) c.history
  rights : ∀ i, (c.caps.pool i).valid = true →
    ∃ birth, c.births[c.serials i]? = some birth ∧ (c.caps.pool i).rights = birth.rights
  shrink : ∀ child ancestor, Relation.TransGen (ChildOf c.births) child ancestor →
    ∃ birth birth', c.births[child]? = some birth ∧ c.births[ancestor]? = some birth' ∧ Within birth.rights birth'.rights

section

variable {pids : Set UInt32} {c c' : Chronicle} {pid : UInt32} {token : UInt64} {history : List Event}

theorem Entitled.later (entitled : Entitled pid token history) (event : Event) :
    Entitled pid token (event :: history) := by
  cases event with
  | allocated => exact .inr entitled
  | derived => exact .inr entitled
  | sent => exact .inr entitled

theorem Within.trans {a b c : UInt64} (first : Within a b) (second : Within b c) : Within a c := by
  unfold Within at *
  calc a &&& c = (a &&& b) &&& c := by rw [first]
    _ = a &&& (b &&& c) := UInt64.and_assoc a b c
    _ = a := by rw [second, first]

/-- What is kept about each call: besides confinement, tokens are not zero and a parent is older than its child. -/
structure Kept (pids : Set UInt32) (c : Chronicle) : Prop where
  held : ∀ pid ∈ pids, ∀ k, c.caps.table (tableOf pid) k ≠ capInvalid →
    Entitled pid (c.caps.table (tableOf pid) k) c.history
  real : ∀ i, (c.caps.pool i).valid = true → (c.caps.pool i).token ≠ capInvalid
  rights : ∀ i, (c.caps.pool i).valid = true →
    ∃ birth, c.births[c.serials i]? = some birth ∧ (c.caps.pool i).rights = birth.rights
  parents : ∀ child parent, ChildOf c.births child parent →
    ∃ birth birth', c.births[child]? = some birth ∧ c.births[parent]? = some birth' ∧ Within birth.rights birth'.rights

theorem Kept.confined (kept : Kept pids c) : Confined pids c where
  held := kept.held
  rights := kept.rights
  shrink child ancestor chain := by
    -- The chain is followed from the child up.
    induction chain with
    | single step => exact kept.parents _ _ step
    | tail _ step ih =>
      obtain ⟨birth, middle, first, second, within⟩ := ih
      obtain ⟨middle', birth', second', third, within'⟩ := kept.parents _ _ step
      rw [second] at second'
      cases second'
      exact ⟨birth, birth', first, third, within.trans within'⟩

theorem getElem?_append_one {births : List Birth} {birth new : Birth} {n : Nat} (old : births[n]? = some birth) :
    (births ++ [new])[n]? = some birth := by
  have small : n < births.length := (List.getElem?_eq_some_iff.mp old).1
  rw [List.getElem?_append_left small]
  exact old

theorem childOf_append {births : List Birth} {new : Birth} {child parent : Nat}
    (step : ChildOf (births ++ [new]) child parent) :
    ChildOf births child parent ∨ (child = births.length ∧ new.parent = some parent) := by
  obtain ⟨birth, place, named⟩ := step
  rcases Nat.lt_trichotomy child births.length with before | here | after
  · rw [List.getElem?_append_left before] at place
    exact .inl ⟨birth, place, named⟩
  · subst here
    rw [List.getElem?_append_right le_rfl, Nat.sub_self] at place
    cases place
    exact .inr ⟨rfl, named⟩
  · rw [List.getElem?_eq_none (by simp; omega)] at place
    cases place

theorem Kept.congr (kept : Kept pids c) {pool : Fin capPoolSize → Entry}
    {table : Fin schedMaxTasks → Fin maxCapsPerTask → UInt64} (same : SameValid c.caps.pool pool)
    (tokens : ∀ t k, table t k = capInvalid ∨ table t k = c.caps.table t k) :
    Kept pids { c with caps := { c.caps with pool := pool, table := table } } := by
  refine ⟨fun pid member k some => ?_, fun i valid => ?_, fun i valid => ?_, kept.parents⟩
  · dsimp only at some ⊢
    rcases tokens (tableOf pid) k with invalid | same
    · exact absurd invalid some
    · rw [same] at some ⊢
      exact kept.held pid member k some
  · dsimp only at valid ⊢
    have before := same.1 i valid
    rw [before] at valid ⊢
    exact kept.real i valid
  · dsimp only at valid ⊢
    have before := same.1 i valid
    rw [before] at valid ⊢
    exact kept.rights i valid

theorem Kept.bear (kept : Kept pids c) (apart : Apart pids) {i : Fin capPoolSize} {k : Fin maxCapsPerTask} {entry : Entry}
    {parent : Option Nat} {event : Event} (member : entry.ownerPid ∈ pids) (slot : freeSlot c.caps = some i)
    (real : entry.token ≠ capInvalid) (title : Entitled entry.ownerPid entry.token (event :: c.history))
    (shrink : ∀ p, parent = some p → ∃ birth, c.births[p]? = some birth ∧ Within entry.rights birth.rights) :
    Kept pids (c.bear (c.caps.create i k entry) parent event) := by
  rw [Chronicle.bear, slot]
  refine ⟨fun pid' member' k' some => ?_, fun j valid => ?_, fun j valid => ?_, fun child p step => ?_⟩
  · dsimp only at some ⊢
    rw [State.create] at some ⊢
    dsimp only at some ⊢
    by_cases table : tableOf pid' = tableOf entry.ownerPid
    · -- Only the owner uses the table with the new token.
      have same : pid' = entry.ownerPid := apart pid' member' _ member table
      rw [same] at some ⊢
      rw [Function.update_self] at some ⊢
      by_cases place : k' = k
      · subst place
        rw [Function.update_self]
        exact title
      · rw [Function.update_of_ne place] at some ⊢
        exact (kept.held _ member k' some).later event
    · rw [Function.update_of_ne table] at some ⊢
      exact (kept.held pid' member' k' some).later event
  · dsimp only [State.create] at valid ⊢
    by_cases own : j = i
    · subst own
      rw [Function.update_self]
      exact real
    · rw [Function.update_of_ne own] at valid ⊢
      exact kept.real j valid
  · dsimp only [State.create] at valid ⊢
    by_cases own : j = i
    · subst own
      rw [Function.update_self, Function.update_self, List.getElem?_append_right le_rfl, Nat.sub_self]
      exact ⟨_, rfl, rfl⟩
    · rw [Function.update_of_ne own] at valid ⊢
      obtain ⟨birth, place, same⟩ := kept.rights j valid
      rw [Function.update_of_ne own]
      exact ⟨birth, getElem?_append_one place, same⟩
  · dsimp only at step ⊢
    rcases childOf_append step with old | ⟨rfl, named⟩
    · obtain ⟨birth, birth', place, place', within⟩ := kept.parents child p old
      exact ⟨birth, birth', getElem?_append_one place, getElem?_append_one place', within⟩
    · obtain ⟨birth, place, within⟩ := shrink p named
      rw [List.getElem?_append_right le_rfl, Nat.sub_self, State.create]
      dsimp only
      rw [Function.update_self]
      exact ⟨_, birth, rfl, getElem?_append_one place, within⟩

theorem within_masked (rights mask : UInt64) : Within (rights &&& (mask &&& capRightsAll) &&& capRightsAll) rights := by
  unfold Within
  generalize mask &&& capRightsAll = small
  rw [UInt64.and_comm _ rights, ← UInt64.and_assoc, ← UInt64.and_assoc, UInt64.and_self]

theorem Kept.failed {α : Type} (kept : Kept pids c) {result : Except Errno α × State} (failed : Failed c.caps result) :
    Kept pids { c with caps := result.2 } := by
  obtain ⟨error, pool, valid, rfl⟩ := failed
  exact kept.congr valid fun t k => .inr rfl

theorem Kept.exec (kept : Kept pids c) (apart : Apart pids) {op : Op} (among : Among pids op)
    (done : execRecorded c op = .ok c') : Kept pids c' := by
  cases op with
  | alloc pid type rights first second =>
    rw [execRecorded] at done
    rcases sysCapAlloc_cases type rights first second c.caps with failed | ⟨i, k, slot, -, made⟩
    · have kept' := kept.failed failed
      obtain ⟨error, pool, valid, result⟩ := failed
      rw [result] at done kept'
      cases done
      exact kept'
    · rw [made] at done
      cases done
      refine kept.bear apart ?_ slot newToken_ne ?_ ?_
      · exact among
      · exact .inl ⟨rfl, rfl⟩
      · intro p none
        cases none
  | derive pid src mask first second =>
    rw [execRecorded] at done
    rcases sysCapDerive_cases src mask first second c.caps with failed | ⟨j, i, k, found, held, slot, -, made⟩
    · have kept' := kept.failed failed
      obtain ⟨error, pool, valid, result⟩ := failed
      rw [result] at done kept'
      cases done
      exact kept'
    · rw [made, found] at done
      cases done
      obtain ⟨valid, named⟩ := capPoolFind_some found
      obtain ⟨place, holds⟩ := capTableHas_iff.mp held
      have some : c.caps.table (tableOf pid) place ≠ capInvalid := by
        rw [holds, ← named]
        exact kept.real j valid
      refine kept.bear apart ?_ slot newToken_ne ?_ ?_
      · exact among
      · -- The source is in the caller's table, so the caller is entitled to it.
        have title := kept.held pid among place some
        rw [holds] at title
        exact .inl ⟨rfl, rfl, title⟩
      · intro p parent
        cases parent
        obtain ⟨birth, born, same⟩ := kept.rights j valid
        refine ⟨birth, born, ?_⟩
        rw [← same]
        exact within_masked (c.caps.pool j).rights mask
  | send pid dstPid token =>
    rw [execRecorded] at done
    rcases sysCapSend_cases dstPid token c.caps with failed | ⟨i, s', found, held, added, sent⟩
    · have kept' := kept.failed failed
      obtain ⟨error, pool, valid, result⟩ := failed
      rw [result] at done kept'
      cases done
      exact kept'
    · rw [sent] at done
      cases done
      obtain ⟨valid, named⟩ := capPoolFind_some found
      obtain ⟨place, holds⟩ := capTableHas_iff.mp held
      have some : c.caps.table (tableOf pid) place ≠ capInvalid := by
        rw [holds, ← named]
        exact kept.real i valid
      have title := kept.held pid among.1 place some
      rw [holds] at title
      have tokens : ∀ t k, s'.table t k = c.caps.table t k ∨ (t = tableOf dstPid ∧ s'.table t k = token) :=
        fun t k => mem_capTableAdd added
      obtain ⟨spot, -, rfl⟩ := capTableAdd_some added
      refine ⟨fun pid' member' k some' => ?_, kept.real, kept.rights, kept.parents⟩
      rcases tokens (tableOf pid') k with before | ⟨table, new⟩
      · dsimp only at some' before ⊢
        rw [before] at some' ⊢
        exact (kept.held pid' member' k some').later _
      · -- Only the destination uses the table with the token that was sent.
        have same : pid' = dstPid := apart pid' member' dstPid among.2 table
        dsimp only at new ⊢
        rw [new]
        exact .inl ⟨same, rfl, title⟩
  | revoke pid token =>
    cases done
    rcases sysCapRevoke_cases token c.caps with failed | ⟨i, found, revoked⟩
    · exact kept.failed failed
    · rw [revoked]
      refine ⟨fun pid' member' k some => ?_, fun j valid => ?_, fun j valid => ?_, kept.parents⟩
      · dsimp only at some ⊢
        split at some
        · exact absurd rfl some
        · rename_i other
          rw [if_neg other]
          exact kept.held pid' member' k some
      · dsimp only at valid ⊢
        by_cases own : j = i
        · subst own
          simp at valid
        · rw [Function.update_of_ne own] at valid ⊢
          exact kept.real j valid
      · dsimp only at valid ⊢
        by_cases own : j = i
        · subst own
          simp at valid
        · rw [Function.update_of_ne own] at valid ⊢
          exact kept.rights j valid
  | exit pid =>
    cases done
    exact kept

end

def bootChronicle (cntpct : UInt64) : Chronicle := ⟨capInit cntpct, fun _ => 0, [], []⟩

theorem kept_boot (pids : Set UInt32) (cntpct : UInt64) : Kept pids (bootChronicle cntpct) where
  held _ _ _ some := absurd rfl some
  real _ valid := by cases valid
  rights _ valid := by cases valid
  parents _ _ step := by
    obtain ⟨birth, place, -⟩ := step
    cases place

def firstToken : UInt64 := newToken (capInit 7).salt 5 100 100

end Enlil.Cap
