import Enlil.Ksem.Semaphore

/-! Handles, names and freed slots: a semaphore is freed only when nothing can reach it any more. -/

namespace Enlil.Ksem

/-- The reference counts are those of the handle records, names are unique, and no slot was freed too early. -/
structure Held (k : State) : Prop where
  inside : ∀ slot, (k.pool slot).active = true → slot < ksemMax
  refcount : ∀ slot < ksemMax, (k.pool slot).refcount = (k.handles slot).card
  referred : ∀ i < ksemMaxHandleRefs, (k.refs i).active = true →
    (k.refs i).sem < ksemMax ∧ (k.pool (k.refs i).sem).active = true
  unique : ∀ a < ksemMax, ∀ b < ksemMax, (k.pool a).listed = true → (k.pool b).listed = true →
    (k.pool a).name = (k.pool b).name → a = b
  short : ∀ a < ksemMax, (k.pool a).listed = true → (k.pool a).name.length < ksemNameMax
  freed : ∀ record ∈ k.freed, record.handles = 0 ∧ record.sem.queue = [] ∧ record.sem.listed = false

section

variable {k k' : State} {slot i w t : Nat} {f : Sem → Sem}

@[simp] theorem mem_handles : i ∈ k.handles slot ↔
    i < ksemMaxHandleRefs ∧ (k.refs i).active = true ∧ (k.refs i).sem = slot := by
  simp [State.handles]

@[simp] theorem setSem_self : (k.setSem slot f).pool slot = f (k.pool slot) := by
  simp [State.setSem]

@[simp] theorem setSem_other {other : Nat} (apart : other ≠ slot) : (k.setSem slot f).pool other = k.pool other := by
  simp [State.setSem, apart]

theorem Held.congr (held : Held k) (pool : k'.pool = k.pool) (refs : k'.refs = k.refs) (freed : k'.freed = k.freed) :
    Held k' := by
  have handles : ∀ slot, k'.handles slot = k.handles slot := fun slot => by simp [State.handles, refs]
  refine ⟨?_, fun slot small => ?_, ?_, ?_, ?_, ?_⟩
  · rw [pool]
    exact held.inside
  · rw [pool, handles]
    exact held.refcount slot small
  · rw [refs, pool]
    exact held.referred
  · rw [pool]
    exact held.unique
  · rw [pool]
    exact held.short
  · rw [freed]
    exact held.freed

/-- The part of a semaphore that its handles and its name depend on stays, except that the name may go. -/
def SameName (before after : Sem) : Prop :=
  after.active = before.active ∧ (after.listed = true → before.listed = true ∧ after.name = before.name)

theorem Held.recount (held : Held k) (same : ∀ slot, SameName (k.pool slot) (k'.pool slot))
    (count : ∀ slot < ksemMax, (k'.pool slot).refcount = (k'.handles slot).card)
    (referred : ∀ i < ksemMaxHandleRefs, (k'.refs i).active = true →
      (k'.refs i).sem < ksemMax ∧ (k.pool (k'.refs i).sem).active = true)
    (freed : k'.freed = k.freed) : Held k' := by
  refine ⟨fun slot active => ?_, count, fun i small used => ?_, fun a small b small' first second equal => ?_,
    fun a small listed => ?_, ?_⟩
  · rw [(same slot).1] at active
    exact held.inside slot active
  · rw [(same _).1]
    exact referred i small used
  · obtain ⟨first, nameA⟩ := (same a).2 first
    obtain ⟨second, nameB⟩ := (same b).2 second
    exact held.unique a small b small' first second (by rw [← nameA, ← nameB]; exact equal)
  · obtain ⟨listed, name⟩ := (same a).2 listed
    rw [name]
    exact held.short a small listed
  · rw [freed]
    exact held.freed

theorem sameName_set (change : SameName (k.pool slot) (f (k.pool slot))) (other : Nat) :
    SameName (k.pool other) ((k.setSem slot f).pool other) := by
  by_cases own : other = slot
  · subst own
    rw [setSem_self]
    exact change
  · rw [setSem_other own]
    exact ⟨rfl, fun listed => ⟨listed, rfl⟩⟩

theorem Held.keep (held : Held k) (refcount : (f (k.pool slot)).refcount = (k.pool slot).refcount)
    (change : SameName (k.pool slot) (f (k.pool slot))) : Held (k.setSem slot f) := by
  apply held.recount (sameName_set change)
  · intro other small
    show _ = (k.handles other).card
    rw [← held.refcount other small]
    by_cases own : other = slot
    · subst own
      rw [setSem_self]
      exact refcount
    · rw [setSem_other own]
  · exact held.referred
  · rfl

theorem Held.replace (held : Held k) (inside : slot < ksemMax) (none : k.handles slot = ∅)
    (refcount : (f (k.pool slot)).refcount = 0)
    (listed : (f (k.pool slot)).listed = true → (f (k.pool slot)).name.length < ksemNameMax ∧
      ∀ other < ksemMax, other ≠ slot → (k.pool other).listed = true →
        (k.pool other).name ≠ (f (k.pool slot)).name) :
    Held (k.setSem slot f) := by
  refine ⟨fun other active => ?_, fun other small => ?_, fun i small used => ?_,
    fun a small b small' first second equal => ?_, fun a small named => ?_, held.freed⟩
  · by_cases own : other = slot
    · rw [own]
      exact inside
    · rw [setSem_other own] at active
      exact held.inside other active
  · by_cases own : other = slot
    · subst own
      rw [setSem_self]
      show _ = (k.handles other).card
      rw [none, Finset.card_empty, refcount]
    · rw [setSem_other own]
      exact held.refcount other small
  · obtain ⟨inside, active⟩ := held.referred i small used
    have apart : (k.refs i).sem ≠ slot := by
      intro same
      have member : i ∈ k.handles slot := mem_handles.mpr ⟨small, used, same⟩
      rw [none] at member
      cases member
    refine ⟨inside, ?_⟩
    show ((k.setSem slot f).pool (k.refs i).sem).active = true
    rw [setSem_other apart]
    exact active
  · -- Two names can only be equal if one is new, and a new name is unlike all the others.
    by_cases ownA : a = slot
    · by_cases ownB : b = slot
      · rw [ownA, ownB]
      · subst ownA
        rw [setSem_self] at first equal
        rw [setSem_other ownB] at second equal
        exact absurd equal.symm ((listed first).2 b small' ownB second)
    · rw [setSem_other ownA] at first equal
      by_cases ownB : b = slot
      · subst ownB
        rw [setSem_self] at second equal
        exact absurd equal ((listed second).2 a small ownA first)
      · rw [setSem_other ownB] at second equal
        exact held.unique a small b small' first second equal
  · by_cases own : a = slot
    · subst own
      rw [setSem_self] at named ⊢
      exact (listed named).1
    · rw [setSem_other own] at named ⊢
      exact held.short a small named

theorem Held.clear (held : Held k) (inside : slot < ksemMax) (none : k.handles slot = ∅) :
    Held (k.setSem slot fun _ => Sem.clear) := by
  apply held.replace inside none rfl
  intro listed
  simp [Sem.listed, Sem.clear] at listed

theorem Held.free_slot (held : Held k) (free : (k.pool slot).active = false) : k.handles slot = ∅ := by
  apply Finset.eq_empty_of_forall_notMem
  intro i member
  obtain ⟨small, used, refers⟩ := mem_handles.mp member
  have active := (held.referred i small used).2
  rw [refers, free] at active
  cases active

theorem canDestroy_spec {sem : Sem} (can : canDestroy sem = true) :
    sem.active = true ∧ sem.queue = [] ∧ sem.refcount = 0 ∧ sem.listed = false := by
  simp only [canDestroy, Bool.and_eq_true, Bool.not_eq_true', List.isEmpty_iff, decide_eq_true_eq] at can
  refine ⟨can.1.1.1, can.1.1.2, can.1.2, ?_⟩
  simp [Sem.listed, Bool.and_assoc, can.2]

theorem Held.destroy (held : Held k) (can : canDestroy (k.pool slot) = true) : Held (Ksem.destroy k slot) := by
  obtain ⟨active, queue, refcount, listed⟩ := canDestroy_spec can
  have inside := held.inside slot active
  have none : k.handles slot = ∅ := by
    rw [← Finset.card_eq_zero, ← held.refcount slot inside]
    exact refcount
  have cleared := held.clear inside none
  unfold Ksem.destroy
  dsimp only
  -- Whose priority goes back to what it was makes no difference here.
  have pool : ∀ k'' : State, k''.pool = k.pool → k''.refs = k.refs → k''.freed = k.freed →
      Held { k''.setSem slot fun _ => Sem.clear with freed := k''.freed ++ [⟨k.pool slot, (k.handles slot).card⟩] } := by
    intro k'' pool refs freed
    have same : Held (k''.setSem slot fun _ => Sem.clear) :=
      cleared.congr (by simp [State.setSem, pool]) refs freed
    refine ⟨same.inside, same.refcount, same.referred, same.unique, same.short, fun record member => ?_⟩
    rcases List.mem_append.mp member with old | last
    · exact same.freed record old
    · cases List.mem_singleton.mp last
      exact ⟨by rw [none, Finset.card_empty], queue, listed⟩
  cases (k.pool slot).lendsTo with
  | none => exact pool k rfl rfl rfl
  | some owner => exact pool (clearDonation k owner) rfl rfl rfl

theorem Held.destroyIfUnused (held : Held k) (slot : Nat) : Held (Ksem.destroyIfUnused k slot) := by
  unfold Ksem.destroyIfUnused
  split
  · rename_i can
    exact held.destroy can
  · exact held

theorem updatePi_frame (k : State) (slot : Nat) : ∃ s, updatePi k slot = { k with sched := s } := by
  unfold updatePi
  split
  · exact ⟨k.sched, rfl⟩
  · split
    · exact ⟨_, rfl⟩
    · exact ⟨_, rfl⟩

theorem Held.updatePi (held : Held k) (slot : Nat) : Held (Ksem.updatePi k slot) := by
  obtain ⟨s, same⟩ := updatePi_frame k slot
  rw [same]
  exact held.congr rfl rfl rfl

theorem findRef_some {ownerPid handle : Nat} (found : findRef k ownerPid handle = some i) :
    i < ksemMaxHandleRefs ∧ (k.refs i).active = true := by
  have member := List.mem_of_find?_eq_some found
  have matches' := List.find?_some found
  simp only [Bool.and_eq_true] at matches'
  exact ⟨by simpa using member, matches'.1.1⟩

theorem findNamed_some {name : List UInt8} (found : findNamed k name = some slot) :
    slot < ksemMax ∧ (k.pool slot).listed = true := by
  have member := List.mem_of_find?_eq_some found
  have matches' := List.find?_some found
  simp only [Bool.and_eq_true] at matches'
  exact ⟨by simpa using member, matches'.1⟩

theorem Held.dropRef (held : Held k) (small : i < ksemMaxHandleRefs) : Held (Ksem.dropRef k i) := by
  unfold Ksem.dropRef
  split
  · rename_i used
    obtain ⟨inside, active⟩ := held.referred i small used
    apply Held.destroyIfUnused
    apply held.recount
    · -- Only the count of the semaphore changes.
      apply sameName_set
      exact ⟨rfl, fun listed => ⟨listed, rfl⟩⟩
    · intro other small'
      have handles : ((k.setRef i fun _ => Ref.clear).setSem (k.refs i).sem fun sem =>
          { sem with refcount := sem.refcount - 1 }).handles other = (k.handles other).erase i := by
        ext j
        by_cases own : j = i
        · subst own
          simp [State.setRef, State.setSem, Ref.clear]
        · simp [State.setRef, State.setSem, own]
      rw [handles]
      by_cases own : other = (k.refs i).sem
      · subst own
        have member : i ∈ k.handles (k.refs i).sem := mem_handles.mpr ⟨small, used, rfl⟩
        rw [setSem_self, Finset.card_erase_of_mem member, ← held.refcount _ small']
        rfl
      · have absent : i ∉ k.handles other := fun member => own (mem_handles.mp member).2.2.symm
        rw [setSem_other own, Finset.erase_eq_of_notMem absent]
        exact held.refcount other small'
    · intro j small' used'
      have apart : j ≠ i := by
        rintro rfl
        simp [State.setRef, State.setSem, Ref.clear] at used'
      have ref : (k.setRef i fun _ => Ref.clear).refs j = k.refs j := by simp [State.setRef, apart]
      change ((k.setRef i fun _ => Ref.clear).refs j).active = true at used'
      show ((k.setRef i fun _ => Ref.clear).refs j).sem < ksemMax ∧
        (k.pool ((k.setRef i fun _ => Ref.clear).refs j).sem).active = true
      rw [ref] at used' ⊢
      exact held.referred j small' used'
    · rfl
  · exact held

theorem handles_card_le (k : State) (slot : Nat) : (k.handles slot).card ≤ ksemMaxHandleRefs := by
  calc (k.handles slot).card ≤ (Finset.range ksemMaxHandleRefs).card := Finset.card_filter_le _ _
    _ = ksemMaxHandleRefs := Finset.card_range _

theorem Held.addRef (held : Held k) (small : i < ksemMaxHandleRefs) (unused : (k.refs i).active = false) (ref : Ref)
    (used : ref.active = true) (inside : ref.sem < ksemMax) (active : (k.pool ref.sem).active = true) :
    Held ((k.setRef i fun _ => ref).setSem ref.sem fun sem => { sem with refcount := (sem.refcount + 1) % 2 ^ 32 }) := by
  apply held.recount
  · -- Only the count of the semaphore changes.
    apply sameName_set
    exact ⟨rfl, fun listed => ⟨listed, rfl⟩⟩
  · intro other small'
    show _ = ((k.setRef i fun _ => ref).handles other).card
    by_cases own : other = ref.sem
    · have handles : (k.setRef i fun _ => ref).handles other = insert i (k.handles other) := by
        ext j
        by_cases here : j = i
        · subst here
          simp [State.setRef, small, used, own]
        · simp [State.setRef, here]
      have absent : i ∉ k.handles other := by simp [unused]
      subst own
      rw [setSem_self, handles, Finset.card_insert_of_notMem absent, ← held.refcount _ small']
      -- The count has 32 bits, and there are far fewer records.
      have bound := handles_card_le k ref.sem
      rw [← held.refcount _ small'] at bound
      apply Nat.mod_eq_of_lt
      show (k.pool ref.sem).refcount + 1 < 2 ^ 32
      have limit : ksemMaxHandleRefs < 2 ^ 32 - 1 := by decide
      omega
    · have handles : (k.setRef i fun _ => ref).handles other = k.handles other := by
        ext j
        by_cases here : j = i
        · subst here
          simp [State.setRef, unused, Ne.symm own]
        · simp [State.setRef, here]
      rw [setSem_other own, handles]
      exact held.refcount other small'
  · intro j small' used'
    change ((k.setRef i fun _ => ref).refs j).active = true at used'
    show ((k.setRef i fun _ => ref).refs j).sem < ksemMax ∧
      (k.pool ((k.setRef i fun _ => ref).refs j).sem).active = true
    by_cases own : j = i
    · have refers : (k.setRef i fun _ => ref).refs j = ref := by simp [State.setRef, own]
      rw [refers]
      exact ⟨inside, active⟩
    · have refers : (k.setRef i fun _ => ref).refs j = k.refs j := by simp [State.setRef, own]
      rw [refers] at used' ⊢
      exact held.referred j small' used'
  · rfl

theorem Held.allocRef (held : Held k) (inside : slot < ksemMax) (active : (k.pool slot).active = true) {handle : Nat}
    (found : Ksem.allocRef k slot = some (handle, k')) : Held k' := by
  unfold Ksem.allocRef at found
  split at found
  · cases found
  · rename_i i free
    have small : i < ksemMaxHandleRefs := by simpa using List.mem_of_find?_eq_some free
    have unused : (k.refs i).active = false := by simpa using List.find?_some free
    cases found
    have added := held.addRef small unused ⟨true, ownerIdFor k.sched k.sched.current, k.nextHandle, slot⟩
      rfl inside active
    exact added.congr rfl rfl rfl

theorem Held.allocEntry (held : Held k) (found : Ksem.allocEntry k = some (slot, k')) :
    Held k' ∧ slot < ksemMax ∧ k'.handles slot = ∅ ∧ (k'.pool slot).refcount = 0 ∧ (k'.pool slot).active = true ∧
      (k'.pool slot).named = false ∧ ∀ other, other ≠ slot → k'.pool other = k.pool other := by
  unfold Ksem.allocEntry at found
  split at found
  · cases found
  · rename_i first free
    have small : first < ksemMax := by simpa using List.mem_of_find?_eq_some free
    have unused : (k.pool first).active = false := by simpa using List.find?_some free
    cases found
    have none := held.free_slot unused
    have taken : Held (k.setSem slot fun _ => { Sem.clear with active := true, id := k.nextId, object := k.nextObject }) := by
      apply held.replace small none rfl
      intro listed
      simp [Sem.listed, Sem.clear] at listed
    refine ⟨taken.congr rfl rfl rfl, small, none, ?_, ?_, ?_, fun other apart => ?_⟩
    · simp [State.setSem, Sem.clear]
    · simp [State.setSem]
    · simp [State.setSem, Sem.clear]
    · simp [State.setSem, apart]

theorem Held.publish (held : Held k) (inside : slot < ksemMax) (none : k.handles slot = ∅)
    (active : (k.pool slot).active = true) : Held (Ksem.publish k slot).2 := by
  unfold Ksem.publish
  dsimp only
  split
  · have cleared := held.clear inside none
    exact cleared.congr rfl rfl rfl
  · rename_i handle k' found
    have noted : Held (k.note (k.pool slot).object fun _ => ⟨(k.pool slot).value, 0, 0⟩) := held.congr rfl rfl rfl
    exact noted.allocRef inside active found

theorem findNamed_none {name : List UInt8} (missing : findNamed k name = none) {other : Nat} (small : other < ksemMax)
    (listed : (k.pool other).listed = true) : (k.pool other).name ≠ name := by
  rintro rfl
  unfold findNamed at missing
  rw [List.find?_eq_none] at missing
  apply missing other (by simpa using small)
  simp [listed, nameEqual]

theorem nameCopy_ok {name copy : List UInt8} (stored : nameCopy name = .ok copy) :
    copy = name ∧ name.length < ksemNameMax := by
  unfold nameCopy at stored
  split at stored
  · cases stored
  · split at stored
    · cases stored
    · rename_i short
      cases stored
      exact ⟨rfl, by omega⟩

theorem Held.create (held : Held k) (name : List UInt8) (value flags : UInt32) :
    Held (Ksem.create k name value flags).2 := by
  unfold Ksem.create
  split
  · exact held
  · rename_i missing
    split
    · exact held
    · rename_i slot k' found
      obtain ⟨taken, inside, none, refcount, active, -, others⟩ := held.allocEntry found
      split
      · exact taken.clear inside none
      · rename_i copy stored
        obtain ⟨rfl, short⟩ := nameCopy_ok stored
        refine Held.publish ?_ inside none ?_
        · apply taken.replace inside none refcount
          intro _
          refine ⟨short, fun other small apart listed => ?_⟩
          rw [others other apart] at listed ⊢
          exact findNamed_none missing small listed
        · rw [setSem_self]
          exact active

theorem Held.anon (held : Held k) (value flags : UInt32) : Held (Ksem.anon k value flags).2 := by
  unfold Ksem.anon
  split
  · exact held
  · rename_i slot k' found
    obtain ⟨taken, inside, none, refcount, active, -, -⟩ := held.allocEntry found
    refine Held.publish ?_ inside none ?_
    · apply taken.replace inside none refcount
      intro listed
      simp [Sem.listed] at listed
    · rw [setSem_self]
      exact active

theorem Held.openNamed (held : Held k) (name : List UInt8) : Held (Ksem.openNamed k name).2 := by
  unfold Ksem.openNamed
  split
  · exact held
  · rename_i slot found
    obtain ⟨inside, listed⟩ := findNamed_some found
    have active : (k.pool slot).active = true := by
      simp only [Sem.listed, Bool.and_eq_true] at listed
      exact listed.1.1
    split
    · exact held
    · rename_i handle k' opened
      exact held.allocRef inside active opened

theorem Held.close (held : Held k) (handle : Nat) : Held (Ksem.close k handle).2 := by
  unfold Ksem.close
  split
  · exact held
  · rename_i i found
    exact held.dropRef (findRef_some found).1

theorem Held.unlink (held : Held k) (name : List UInt8) : Held (Ksem.unlink k name).2 := by
  unfold Ksem.unlink
  split
  · exact held
  · rename_i slot found
    apply Held.destroyIfUnused
    apply held.keep rfl
    exact ⟨rfl, fun listed => by simp [Sem.listed] at listed⟩

theorem sameName_markOneshot (sem : Sem) :
    (markOneshot sem).refcount = sem.refcount ∧ SameName sem (markOneshot sem) := by
  unfold markOneshot
  split
  · exact ⟨rfl, rfl, fun listed => ⟨listed, rfl⟩⟩
  · exact ⟨rfl, rfl, fun listed => by simp [Sem.listed] at listed⟩

theorem Held.markOneshot (held : Held k) (slot : Nat) : Held (k.setSem slot Ksem.markOneshot) :=
  held.keep (sameName_markOneshot _).1 (sameName_markOneshot _).2

theorem Held.clearDonation (held : Held k) (owner : Nat) : Held (Ksem.clearDonation k owner) :=
  held.congr rfl rfl rfl

theorem Held.note (held : Held k) (object : Nat) (change : Ledger → Ledger) : Held (k.note object change) :=
  held.congr rfl rfl rfl

theorem Held.takeToken (held : Held k) (slot : Nat) : Held (Ksem.takeToken k slot) := by
  unfold Ksem.takeToken
  dsimp only
  apply Held.destroyIfUnused
  apply Held.markOneshot
  apply Held.updatePi
  apply Held.note
  apply Held.keep _ rfl ⟨rfl, fun listed => ⟨listed, rfl⟩⟩
  split
  · exact held
  · split
    · exact held.clearDonation _
    · exact held

theorem Held.setQueue (held : Held k) (slot : Nat) (queue : List Nat) :
    Held (k.setSem slot fun sem => { sem with queue := queue }) :=
  held.keep rfl ⟨rfl, fun listed => ⟨listed, rfl⟩⟩

theorem Held.waitStart (held : Held k) (handle : Nat) (forever tryOnly : Bool) :
    Held (Ksem.waitStart k handle forever tryOnly).2 := by
  unfold Ksem.waitStart
  split
  · exact held
  · rename_i slot found
    split
    · exact held.takeToken slot
    · split
      · exact held
      · split
        · exact held
        · rename_i w k' taken
          have waits : Held k' := by
            unfold allocWaiter at taken
            split at taken
            · cases taken
            · cases taken
              exact held.congr rfl rfl rfl
          have pushed : Held (waitqPush k' slot w) := waits.setQueue slot _
          exact (pushed.updatePi slot).congr rfl rfl rfl

theorem Held.waitPoll (held : Held k) (signal expired : Bool) : Held (Ksem.waitPoll k signal expired) := by
  unfold Ksem.waitPoll
  repeat' split
  all_goals exact held.congr rfl rfl rfl

theorem Held.setWaiter (held : Held k) (w : Nat) (change : Waiter → Waiter) : Held (k.setWaiter w change) :=
  held.congr rfl rfl rfl

theorem Held.freeWaiter (held : Held k) (w : Nat) : Held (Ksem.freeWaiter k w) := held.setWaiter w _

theorem Held.setWait (held : Held k) (t : Nat) (wait : Wait) : Held (k.setWait t wait) := held.congr rfl rfl rfl

theorem Held.waitqRemove (held : Held k) (slot w : Nat) : Held (Ksem.waitqRemove k slot w) := held.setQueue slot _

theorem Held.giveUp (held : Held k) (w slot : Nat) : Held (Ksem.giveUp k w slot) := by
  unfold Ksem.giveUp
  split
  · apply Held.destroyIfUnused
    apply Held.freeWaiter
    apply Held.updatePi
    exact held.waitqRemove slot w
  · exact held

theorem Held.waitFinish (held : Held k) {result : Except Errno Unit} (done : Ksem.waitFinish k = some (result, k')) :
    Held k' := by
  unfold Ksem.waitFinish at done
  dsimp only at done
  split at done
  · cases done
    apply Held.setWait
    apply Held.destroyIfUnused
    apply Held.freeWaiter
    exact held.note _ _
  · cases done
    exact (held.giveUp _ _).setWait _ _
  · cases done
    exact (held.giveUp _ _).setWait _ _
  · cases done
  · cases done

theorem Held.post (held : Held k) (handle : Nat) : Held (Ksem.post k handle).2 := by
  unfold Ksem.post
  split
  · exact held
  · rename_i slot found
    dsimp only
    apply Held.destroyIfUnused
    apply Held.markOneshot
    have noted := held.note (k.pool slot).object fun ledger => { ledger with posts := ledger.posts + 1 }
    split
    · apply Held.updatePi
      apply Held.keep _ rfl ⟨rfl, fun listed => ⟨listed, rfl⟩⟩
      apply Held.setWaiter
      split
      · exact noted
      · split
        · exact noted.clearDonation _
        · exact noted
    · apply Held.keep _ rfl ⟨rfl, fun listed => ⟨listed, rfl⟩⟩
      split
      · exact noted
      · exact noted.clearDonation _

theorem Held.taskCleanup (held : Held k) (t : Nat) : Held (Ksem.taskCleanup k t) := by
  unfold Ksem.taskCleanup
  apply Held.setWait
  -- One list after the other: the waits, what the task holds, and its handles.
  apply List.foldlRecOn (motive := Held)
  · apply List.foldlRecOn (motive := Held)
    · apply List.foldlRecOn (motive := Held) _ _ held
      intro k held w _
      unfold cleanupWaiter
      split
      · apply Held.freeWaiter
        apply Held.destroyIfUnused
        apply Held.updatePi
        exact held.waitqRemove _ w
      · exact held
    · intro k held slot _
      unfold cleanupOwner
      split
      · apply Held.updatePi
        apply Held.keep _ rfl ⟨rfl, fun listed => ⟨listed, rfl⟩⟩
        split
        · exact held.clearDonation t
        · exact held
      · exact held
  · intro k held i member
    unfold cleanupRef
    split
    · exact held.dropRef (by simpa using member)
    · exact held

theorem Held.exec (held : Held k) {op : Op} (done : Ksem.exec k op = .ok k') : Held k' := by
  cases op with
  | turn op =>
    unfold Ksem.exec at done
    dsimp only at done
    split at done
    · cases done
      exact held.congr rfl rfl rfl
    · cases done
  | create name value flags =>
    rw [← Except.ok.inj done]
    exact held.create name value flags
  | anon value flags =>
    rw [← Except.ok.inj done]
    exact held.anon value flags
  | openNamed name =>
    rw [← Except.ok.inj done]
    exact held.openNamed name
  | close handle =>
    rw [← Except.ok.inj done]
    exact held.close handle
  | unlink name =>
    rw [← Except.ok.inj done]
    exact held.unlink name
  | post handle =>
    rw [← Except.ok.inj done]
    exact held.post handle
  | wait handle forever tryOnly =>
    rw [← Except.ok.inj done]
    exact held.waitStart handle forever tryOnly
  | poll signal expired =>
    rw [← Except.ok.inj done]
    exact held.waitPoll signal expired
  | finish =>
    unfold Ksem.exec at done
    dsimp only at done
    split at done
    · rename_i result k'' finished
      cases done
      exact held.waitFinish finished
    · cases done
      exact held
  | cleanup t =>
    rw [← Except.ok.inj done]
    exact held.taskCleanup t

end

theorem held_ksemInit : Held ksemInit := by
  have none : ∀ slot, ksemInit.handles slot = ∅ := by
    intro slot
    ext i
    simp [ksemInit, Ref.clear]
  refine ⟨fun slot active => ?_, fun slot _ => ?_, fun i _ used => ?_, fun a _ b _ listed => ?_,
    fun a _ listed => ?_, fun record member => ?_⟩
  · cases active
  · rw [none, Finset.card_empty]
    rfl
  · cases used
  · cases listed
  · cases listed
  · cases member

/--
In every run, a semaphore has as many references as there are handle records for it, every slot that was freed had no
handle record, no waiter and no name any more, and no two semaphores can be found by the same name.
-/
theorem run_handles_exact {k : State} (run : Run exec (fun k op => op.Valid k) ksemInit k) :
    (∀ slot < ksemMax, (k.pool slot).refcount = (k.handles slot).card) ∧
      (∀ record ∈ k.freed, record.handles = 0 ∧ record.sem.queue = [] ∧ record.sem.listed = false) ∧
      ∀ a < ksemMax, ∀ b < ksemMax, (k.pool a).listed = true → (k.pool b).listed = true →
        nameEqual (k.pool a).name (k.pool b).name = true → a = b := by
  have held : Held k := by
    induction run with
    | start => exact held_ksemInit
    | call op _ _ done ih => exact ih.exec done
  refine ⟨held.refcount, held.freed, fun a small b small' first second equal => ?_⟩
  -- A name that is stored is so short that the comparison sees all of it.
  have shortA := held.short a small first
  have shortB := held.short b small' second
  apply held.unique a small b small' first second
  simp only [nameEqual, decide_eq_true_eq] at equal
  rw [List.take_of_length_le (by omega), List.take_of_length_le (by omega)] at equal
  exact equal

/-- A semaphore is created and opened by its name, loses it, and then both handles. -/
def openedUnlinkedClosed : List Op :=
  [.anon 3 0, .create [97] 1 0, .openNamed [97], .unlink [97], .create [97] 0 0, .close 2, .close 3]

theorem run_handles_exact_openedUnlinkedClosed :
    ∃ k, Run exec (fun k op => op.Valid k) ksemInit k ∧ (k.freed.map fun record => record.sem.id) = [2] ∧
      (k.pool 2).name = [97] ∧ (k.pool 2).refcount = 1 ∧
      (∀ slot < ksemMax, (k.pool slot).refcount = (k.handles slot).card) ∧
      (∀ record ∈ k.freed, record.handles = 0 ∧ record.sem.queue = [] ∧ record.sem.listed = false) := by
  have seen : (runList exec (fun k op => op.Valid k) ksemInit openedUnlinkedClosed).any
      (fun k => (k.freed.map fun record => record.sem.id) = [2] ∧ (k.pool 2).name = [97] ∧ (k.pool 2).refcount = 1) =
      true := by
    decide +kernel
  obtain ⟨k, run, seen⟩ := runList_any seen
  obtain ⟨freed, name, refcount⟩ := of_decide_eq_true seen
  obtain ⟨counts, early, -⟩ := run_handles_exact run
  exact ⟨k, run, freed, name, refcount, counts, early⟩

end Enlil.Ksem
