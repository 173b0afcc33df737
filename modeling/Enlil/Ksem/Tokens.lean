import Enlil.Ksem.Handles

/-! The tokens of a semaphore: where they come from, where they are, and which steps lose one. -/

namespace Enlil.Ksem

/-- The waiter and the semaphore of a task that is in a wait. -/
def Wait.on : Wait → Option (Nat × Nat)
  | .idle => none
  | .looping w sem _ | .consuming w sem | .interrupting w sem | .timingOut w sem => some (w, sem)

/-- A wait that will return an error, whatever happens to it. -/
def Wait.doomed : Wait → Bool
  | .interrupting _ _ | .timingOut _ _ => true
  | .idle | .looping _ _ _ | .consuming _ _ => false

/-- The waiters that have been given a token of a semaphore. -/
def State.grants (k : State) (object : Nat) : Finset Nat :=
  (Finset.range ksemMaxWaiters).filter fun w =>
    (k.waiters w).active = true ∧ (k.waiters w).granted = true ∧ (k.waiters w).object = object

/-- Those of them whose wait will return with the token. -/
def State.promised (k : State) (object : Nat) : Finset Nat :=
  (k.grants object).filter fun w =>
    (k.wait (k.waiters w).task).on = some (w, (k.waiters w).sem) ∧ (k.wait (k.waiters w).task).doomed = false

/-- The tokens that were put in are those that are left, were taken or are `out`. -/
def Ledger.Balanced (ledger : Ledger) (value : Int) (out : Nat) : Prop :=
  ledger.initial + ledger.posts = value + ledger.successes + out

/-- No token of a semaphore is lost or made up, whether it is in use or was freed. -/
structure Conserved (k : State) : Prop where
  balance : ∀ slot < ksemMax, (k.pool slot).active = true →
    (k.ledger (k.pool slot).object).Balanced (k.pool slot).value (k.promised (k.pool slot).object).card
  freed : ∀ record ∈ k.freed,
    (k.ledger record.sem.object).Balanced record.sem.value (k.promised record.sem.object).card
  unspent : ∀ t w slot, (k.wait t).on = some (w, slot) → (k.wait t).doomed = true → (k.waiters w).granted = false
  value : ∀ slot < ksemMax, 0 ≤ (k.pool slot).value
  empty : ∀ slot < ksemMax, (k.pool slot).queue ≠ [] → (k.pool slot).value = 0

/-- A token that is given back to a semaphore finds a waiter that has not given up, or room in the value. -/
def takesToken (k : State) (slot : Nat) : Bool :=
  match (k.pool slot).queue with
  | [] => (k.pool slot).value < 2 ^ 31 - 1
  | w :: _ => !(k.wait (k.waiters w).task).doomed

/--
The steps that keep every token.

A token must not go to a waiter that has already given up or is being ended, and a value must fit its 32 bits.
-/
def Op.Safe (k : State) : Op → Prop
  | .create _ value _ | .anon value _ => value.toNat < 2 ^ 31
  | .post handle => (semOf k handle).all (takesToken k) = true
  | .cleanup t => ∀ w < ksemMaxWaiters, (k.waiters w).active = true → (k.waiters w).task = t →
      (k.waiters w).granted = false
  | _ => True

instance (k : State) (op : Op) : Decidable (op.Safe k) :=
  match op with
  | .create _ value _ | .anon value _ => inferInstanceAs (Decidable (value.toNat < 2 ^ 31))
  | .post handle => inferInstanceAs (Decidable ((semOf k handle).all (takesToken k) = true))
  | .cleanup t => inferInstanceAs (Decidable (∀ w < ksemMaxWaiters, (k.waiters w).active = true →
      (k.waiters w).task = t → (k.waiters w).granted = false))
  | .turn _ | .openNamed _ | .close _ | .unlink _ | .wait _ _ _ | .poll _ _ | .finish => inferInstanceAs (Decidable True)

/-- Waiters, queues and the places of the tasks agree, except for a task that is just leaving its wait. -/
structure Queued (leaving : Option Nat) (k : State) : Prop where
  member : ∀ slot, ∀ w ∈ (k.pool slot).queue, w < ksemMaxWaiters ∧ (k.pool slot).active = true ∧
    (k.waiters w).active = true ∧ (k.waiters w).granted = false ∧ (k.waiters w).sem = slot ∧
    (k.waiters w).object = (k.pool slot).object
  once : ∀ slot, (k.pool slot).queue.Nodup
  queued : ∀ w < ksemMaxWaiters, (k.waiters w).active = true → (k.waiters w).granted = false →
    w ∈ (k.pool (k.waiters w).sem).queue
  waits : ∀ w < ksemMaxWaiters, (k.waiters w).active = true →
    (k.wait (k.waiters w).task).on = some (w, (k.waiters w).sem)
  placed : ∀ t w slot, some t ≠ leaving → (k.wait t).on = some (w, slot) → w < ksemMaxWaiters ∧
    (k.waiters w).active = true ∧ (k.waiters w).task = t ∧ (k.waiters w).sem = slot ∧
    ((k.wait t).doomed = true → (k.waiters w).granted = false) ∧
    (k.wait t = .consuming w slot → (k.waiters w).granted = true)

/-- The books are right, and every semaphore has its own. -/
structure Counted (k : State) : Prop where
  balance : ∀ slot, (k.pool slot).active = true →
    (k.ledger (k.pool slot).object).Balanced (k.pool slot).value (k.grants (k.pool slot).object).card
  freed : ∀ record ∈ k.freed, (k.ledger record.sem.object).Balanced record.sem.value (k.grants record.sem.object).card
  value : ∀ slot, 0 ≤ (k.pool slot).value ∧ (k.pool slot).value < 2 ^ 31
  empty : ∀ slot, (k.pool slot).queue ≠ [] → (k.pool slot).value = 0
  apart : ∀ a b, (k.pool a).active = true → (k.pool b).active = true → (k.pool a).object = (k.pool b).object → a = b
  gone : ∀ record ∈ k.freed, ∀ slot, (k.pool slot).active = true → (k.pool slot).object ≠ record.sem.object
  newSem : ∀ slot, (k.pool slot).active = true → (k.pool slot).object < k.nextObject
  newFreed : ∀ record ∈ k.freed, record.sem.object < k.nextObject
  newWaiter : ∀ w < ksemMaxWaiters, (k.waiters w).active = true → (k.waiters w).object < k.nextObject

section

variable {k k' : State} {leaving : Option Nat} {slot i w t : Nat} {f : Sem → Sem}

@[simp] theorem mem_grants {object : Nat} : w ∈ k.grants object ↔ w < ksemMaxWaiters ∧
    (k.waiters w).active = true ∧ (k.waiters w).granted = true ∧ (k.waiters w).object = object := by
  simp [State.grants]

theorem Queued.congr (queued : Queued leaving k) (pool : k'.pool = k.pool) (waiters : k'.waiters = k.waiters)
    (wait : k'.wait = k.wait) : Queued leaving k' := by
  refine ⟨?_, ?_, ?_, ?_, ?_⟩
  · rw [pool, waiters]
    exact queued.member
  · rw [pool]
    exact queued.once
  · rw [pool, waiters]
    exact queued.queued
  · rw [waiters, wait]
    exact queued.waits
  · rw [waiters, wait]
    exact queued.placed

theorem Counted.congr (counted : Counted k) (pool : k'.pool = k.pool) (waiters : k'.waiters = k.waiters)
    (ledger : k'.ledger = k.ledger) (freed : k'.freed = k.freed) (next : k.nextObject ≤ k'.nextObject) : Counted k' := by
  have grants : ∀ object, k'.grants object = k.grants object := fun object => by simp [State.grants, waiters]
  refine ⟨fun slot active => ?_, fun record member => ?_, ?_, ?_, ?_, ?_, fun slot active => ?_,
    fun record member => ?_, fun w small used => ?_⟩
  · rw [pool] at active ⊢
    rw [ledger, grants]
    exact counted.balance slot active
  · rw [freed] at member
    rw [ledger, grants]
    exact counted.freed record member
  · rw [pool]
    exact counted.value
  · rw [pool]
    exact counted.empty
  · rw [pool]
    exact counted.apart
  · rw [pool, freed]
    exact counted.gone
  · rw [pool] at active ⊢
    exact Nat.lt_of_lt_of_le (counted.newSem slot active) next
  · rw [freed] at member
    exact Nat.lt_of_lt_of_le (counted.newFreed record member) next
  · rw [waiters] at used ⊢
    exact Nat.lt_of_lt_of_le (counted.newWaiter w small used) next

theorem Queued.keep (queued : Queued leaving k) (active : (f (k.pool slot)).active = (k.pool slot).active)
    (queue : (f (k.pool slot)).queue = (k.pool slot).queue) (object : (f (k.pool slot)).object = (k.pool slot).object) :
    Queued leaving (k.setSem slot f) := by
  have same : ∀ other, ((k.setSem slot f).pool other).active = (k.pool other).active ∧
      ((k.setSem slot f).pool other).queue = (k.pool other).queue ∧
      ((k.setSem slot f).pool other).object = (k.pool other).object := by
    intro other
    by_cases own : other = slot
    · subst own
      rw [setSem_self]
      exact ⟨active, queue, object⟩
    · rw [setSem_other own]
      exact ⟨rfl, rfl, rfl⟩
  refine ⟨fun other w member => ?_, fun other => ?_, fun w small used free => ?_, queued.waits, queued.placed⟩
  · rw [(same other).2.1] at member
    rw [(same other).1, (same other).2.2]
    exact queued.member other w member
  · rw [(same other).2.1]
    exact queued.once other
  · rw [(same _).2.1]
    exact queued.queued w small used free

theorem Counted.keep (counted : Counted k) (active : (f (k.pool slot)).active = true → (k.pool slot).active = true)
    (queue : (f (k.pool slot)).queue ≠ [] → (k.pool slot).queue ≠ [])
    (value : (f (k.pool slot)).value = (k.pool slot).value) (object : (f (k.pool slot)).object = (k.pool slot).object) :
    Counted (k.setSem slot f) := by
  have same : ∀ other, (((k.setSem slot f).pool other).active = true → (k.pool other).active = true) ∧
      (((k.setSem slot f).pool other).queue ≠ [] → (k.pool other).queue ≠ []) ∧
      ((k.setSem slot f).pool other).value = (k.pool other).value ∧
      ((k.setSem slot f).pool other).object = (k.pool other).object := by
    intro other
    by_cases own : other = slot
    · subst own
      rw [setSem_self]
      exact ⟨active, queue, value, object⟩
    · rw [setSem_other own]
      exact ⟨id, id, rfl, rfl⟩
  refine ⟨fun other used => ?_, counted.freed, fun other => ?_, fun other waits => ?_, fun a b first second equal => ?_,
    fun record member other used => ?_, fun other used => ?_, counted.newFreed, counted.newWaiter⟩
  · rw [(same other).2.2.1, (same other).2.2.2]
    exact counted.balance other ((same other).1 used)
  · rw [(same other).2.2.1]
    exact counted.value other
  · rw [(same other).2.2.1]
    exact counted.empty other ((same other).2.1 waits)
  · rw [(same a).2.2.2, (same b).2.2.2] at equal
    exact counted.apart a b ((same a).1 first) ((same b).1 second) equal
  · rw [(same other).2.2.2]
    exact counted.gone record member other ((same other).1 used)
  · rw [(same other).2.2.2]
    exact counted.newSem other ((same other).1 used)

theorem Queued.clear (queued : Queued leaving k) (none : (k.pool slot).queue = []) :
    Queued leaving (k.setSem slot fun _ => Sem.clear) := by
  have same : ∀ other, ((k.setSem slot fun _ => Sem.clear).pool other).queue = (k.pool other).queue := by
    intro other
    by_cases own : other = slot
    · subst own
      rw [setSem_self, none]
      rfl
    · rw [setSem_other own]
  refine ⟨fun other w member => ?_, fun other => ?_, fun w small used free => ?_, queued.waits, queued.placed⟩
  · rw [same] at member
    have apart : other ≠ slot := by
      rintro rfl
      rw [none] at member
      cases member
    rw [setSem_other apart]
    exact queued.member other w member
  · rw [same]
    exact queued.once other
  · rw [same]
    exact queued.queued w small used free

theorem Counted.clear (counted : Counted k) (slot : Nat) : Counted (k.setSem slot fun _ => Sem.clear) := by
  have same : ∀ other, ((k.setSem slot fun _ => Sem.clear).pool other).active = true →
      other ≠ slot ∧ (k.setSem slot fun _ => Sem.clear).pool other = k.pool other := by
    intro other used
    have apart : other ≠ slot := by
      rintro rfl
      rw [setSem_self] at used
      cases used
    exact ⟨apart, setSem_other apart⟩
  refine ⟨fun other used => ?_, counted.freed, fun other => ?_, fun other waits => ?_, fun a b first second equal => ?_,
    fun record member other used => ?_, fun other used => ?_, counted.newFreed, counted.newWaiter⟩
  · obtain ⟨-, kept⟩ := same other used
    rw [kept] at used ⊢
    exact counted.balance other used
  · by_cases own : other = slot
    · subst own
      rw [setSem_self]
      exact ⟨Int.le_refl 0, by decide⟩
    · rw [setSem_other own]
      exact counted.value other
  · by_cases own : other = slot
    · subst own
      rw [setSem_self]
      rfl
    · rw [setSem_other own] at waits ⊢
      exact counted.empty other waits
  · obtain ⟨-, keptA⟩ := same a first
    obtain ⟨-, keptB⟩ := same b second
    rw [keptA] at first equal
    rw [keptB] at second equal
    exact counted.apart a b first second equal
  · obtain ⟨-, kept⟩ := same other used
    rw [kept] at used ⊢
    exact counted.gone record member other used
  · obtain ⟨-, kept⟩ := same other used
    rw [kept] at used ⊢
    exact counted.newSem other used

theorem Counted.destroy (counted : Counted k) (active : (k.pool slot).active = true) :
    Counted (Ksem.destroy k slot) := by
  have cleared := counted.clear slot
  unfold Ksem.destroy
  dsimp only
  have logged : ∀ k'' : State, k''.pool = k.pool → k''.waiters = k.waiters → k''.ledger = k.ledger →
      k''.freed = k.freed → k''.nextObject = k.nextObject →
      Counted { k''.setSem slot fun _ => Sem.clear with freed := k''.freed ++ [⟨k.pool slot, (k.handles slot).card⟩] } := by
    intro k'' pool waiters ledger freed next
    have same : Counted (k''.setSem slot fun _ => Sem.clear) :=
      cleared.congr (by simp [State.setSem, pool]) waiters ledger freed (Nat.le_of_eq next.symm)
    have grants : ∀ object, (k''.setSem slot fun _ => Sem.clear).grants object = k.grants object := by
      intro object
      ext w
      simp [State.setSem, waiters]
    refine ⟨same.balance, fun record member => ?_, same.value, same.empty, same.apart, fun record member other used => ?_,
      same.newSem, fun record member => ?_, same.newWaiter⟩
    · rcases List.mem_append.mp member with old | last
      · exact same.freed record old
      · cases List.mem_singleton.mp last
        show (k''.ledger (k.pool slot).object).Balanced (k.pool slot).value
          ((k''.setSem slot fun _ => Sem.clear).grants (k.pool slot).object).card
        rw [ledger, grants]
        exact counted.balance slot active
    · rcases List.mem_append.mp member with old | last
      · exact same.gone record old other used
      · cases List.mem_singleton.mp last
        -- Only one slot ever holds a semaphore.
        change ((k''.setSem slot fun _ => Sem.clear).pool other).active = true at used
        show ((k''.setSem slot fun _ => Sem.clear).pool other).object ≠ (k.pool slot).object
        have apart : other ≠ slot := by
          rintro rfl
          rw [setSem_self] at used
          cases used
        rw [setSem_other apart, pool] at used ⊢
        exact fun equal => apart (counted.apart other slot used active equal)
    · rcases List.mem_append.mp member with old | last
      · exact same.newFreed record old
      · cases List.mem_singleton.mp last
        show (k.pool slot).object < k''.nextObject
        rw [next]
        exact counted.newSem slot active
  cases (k.pool slot).lendsTo with
  | none => exact logged k rfl rfl rfl rfl rfl
  | some owner => exact logged (clearDonation k owner) rfl rfl rfl rfl rfl

theorem Queued.destroy (queued : Queued leaving k) (none : (k.pool slot).queue = []) :
    Queued leaving (Ksem.destroy k slot) := by
  have cleared := queued.clear none
  unfold Ksem.destroy
  dsimp only
  cases (k.pool slot).lendsTo with
  | none => exact cleared.congr rfl rfl rfl
  | some owner => exact cleared.congr rfl rfl rfl

/-- Everything that the tokens depend on. -/
structure Tokens (leaving : Option Nat) (k : State) : Prop where
  queued : Queued leaving k
  counted : Counted k

theorem Tokens.congr (tokens : Tokens leaving k) (pool : k'.pool = k.pool) (waiters : k'.waiters = k.waiters)
    (wait : k'.wait = k.wait) (ledger : k'.ledger = k.ledger) (freed : k'.freed = k.freed)
    (next : k.nextObject ≤ k'.nextObject) : Tokens leaving k' :=
  ⟨tokens.queued.congr pool waiters wait, tokens.counted.congr pool waiters ledger freed next⟩

/-- The part of a semaphore that its tokens depend on stays. -/
def SameTokens (before after : Sem) : Prop :=
  after.active = before.active ∧ after.queue = before.queue ∧ after.value = before.value ∧ after.object = before.object

theorem Tokens.keep (tokens : Tokens leaving k) (same : SameTokens (k.pool slot) (f (k.pool slot))) :
    Tokens leaving (k.setSem slot f) := by
  obtain ⟨active, queue, value, object⟩ := same
  refine ⟨tokens.queued.keep active queue object, tokens.counted.keep (fun used => ?_) (fun waits => ?_) value object⟩
  · rw [← active]
    exact used
  · rw [← queue]
    exact waits

theorem Tokens.destroyIfUnused (tokens : Tokens leaving k) (slot : Nat) :
    Tokens leaving (Ksem.destroyIfUnused k slot) := by
  unfold Ksem.destroyIfUnused
  split
  · rename_i can
    obtain ⟨active, none, -, -⟩ := canDestroy_spec can
    exact ⟨tokens.queued.destroy none, tokens.counted.destroy active⟩
  · exact tokens

theorem Tokens.clearDonation (tokens : Tokens leaving k) (owner : Nat) : Tokens leaving (Ksem.clearDonation k owner) :=
  tokens.congr rfl rfl rfl rfl rfl le_rfl

theorem Tokens.updatePi (tokens : Tokens leaving k) (slot : Nat) : Tokens leaving (Ksem.updatePi k slot) := by
  obtain ⟨s, same⟩ := updatePi_frame k slot
  rw [same]
  exact tokens.congr rfl rfl rfl rfl rfl le_rfl

theorem Tokens.markOneshot (tokens : Tokens leaving k) (slot : Nat) : Tokens leaving (k.setSem slot Ksem.markOneshot) := by
  apply tokens.keep
  unfold Ksem.markOneshot
  split
  · exact ⟨rfl, rfl, rfl, rfl⟩
  · exact ⟨rfl, rfl, rfl, rfl⟩

theorem Tokens.dropRef (tokens : Tokens leaving k) (i : Nat) : Tokens leaving (Ksem.dropRef k i) := by
  unfold Ksem.dropRef
  split
  · apply Tokens.destroyIfUnused
    apply Tokens.keep _ ⟨rfl, rfl, rfl, rfl⟩
    exact tokens.congr rfl rfl rfl rfl rfl le_rfl
  · exact tokens

theorem Tokens.allocRef (tokens : Tokens leaving k) {handle : Nat} (found : Ksem.allocRef k slot = some (handle, k')) :
    Tokens leaving k' := by
  unfold Ksem.allocRef at found
  split at found
  · cases found
  · rename_i i free
    cases found
    have counted : Tokens leaving ((k.setRef i fun _ =>
        ⟨true, ownerIdFor k.sched k.sched.current, k.nextHandle, slot⟩).setSem slot fun sem =>
        { sem with refcount := (sem.refcount + 1) % 2 ^ 32 }) := by
      apply Tokens.keep _ ⟨rfl, rfl, rfl, rfl⟩
      exact tokens.congr rfl rfl rfl rfl rfl le_rfl
    exact counted.congr rfl rfl rfl rfl rfl le_rfl

end

end Enlil.Ksem
