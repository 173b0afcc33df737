import Enlil.Ksem.Tokens

/-! What each step does to the tokens, and which runs keep all of them. -/

namespace Enlil.Ksem

section

variable {k k' : State} {leaving : Option Nat} {slot i w t : Nat} {f : Sem → Sem}

theorem Queued.free_slot (queued : Queued leaving k) (free : (k.pool slot).active = false) : (k.pool slot).queue = [] := by
  apply List.eq_nil_iff_forall_not_mem.mpr
  intro w member
  have used := (queued.member slot w member).2.1
  rw [free] at used
  cases used

theorem Counted.install (counted : Counted k) {sem : Sem} (none : sem.queue = []) (object : sem.object = k.nextObject)
    (value : 0 ≤ sem.value ∧ sem.value < 2 ^ 31) (pool : k'.pool = Function.update k.pool slot sem)
    (waiters : k'.waiters = k.waiters) (freed : k'.freed = k.freed)
    (ledger : k'.ledger = Function.update k.ledger sem.object ⟨sem.value, 0, 0⟩)
    (next : k'.nextObject = k.nextObject + 1) : Counted k' := by
  have grants : ∀ object, k'.grants object = k.grants object := fun object => by simp [State.grants, waiters]
  have here : k'.pool slot = sem := by simp [pool]
  have there : ∀ other, other ≠ slot → k'.pool other = k.pool other := fun other apart => by simp [pool, apart]
  have old : ∀ object, object < k.nextObject → k'.ledger object = k.ledger object := by
    intro object' small
    rw [ledger, Function.update_of_ne (by omega)]
  -- Nobody has been given a token of the new semaphore.
  have unused : k.grants sem.object = ∅ := by
    apply Finset.eq_empty_of_forall_notMem
    intro w member
    obtain ⟨small, used, -, equal⟩ := mem_grants.mp member
    have new := counted.newWaiter w small used
    omega
  refine ⟨fun other used => ?_, fun record member => ?_, fun other => ?_, fun other waits => ?_,
    fun a b first second equal => ?_, fun record member other used => ?_, fun other used => ?_,
    fun record member => ?_, fun w small used => ?_⟩
  · rw [grants]
    by_cases own : other = slot
    · rw [own, here, ledger, Function.update_self, unused]
      simp [Ledger.Balanced]
    · rw [there other own] at used ⊢
      rw [old _ (counted.newSem other used)]
      exact counted.balance other used
  · rw [freed] at member
    rw [grants, old _ (counted.newFreed record member)]
    exact counted.freed record member
  · by_cases own : other = slot
    · rw [own, here]
      exact value
    · rw [there other own]
      exact counted.value other
  · by_cases own : other = slot
    · rw [own, here] at waits
      exact absurd none waits
    · rw [there other own] at waits ⊢
      exact counted.empty other waits
  · by_cases ownA : a = slot
    · by_cases ownB : b = slot
      · rw [ownA, ownB]
      · rw [ownA, here, there b ownB] at equal
        rw [there b ownB] at second
        have new := counted.newSem b second
        omega
    · rw [there a ownA] at first equal
      by_cases ownB : b = slot
      · rw [ownB, here] at equal
        have new := counted.newSem a first
        omega
      · rw [there b ownB] at second equal
        exact counted.apart a b first second equal
  · rw [freed] at member
    by_cases own : other = slot
    · rw [own, here]
      have new := counted.newFreed record member
      omega
    · rw [there other own] at used ⊢
      exact counted.gone record member other used
  · rw [next]
    by_cases own : other = slot
    · rw [own, here]
      omega
    · rw [there other own] at used ⊢
      have new := counted.newSem other used
      omega
  · rw [freed] at member
    rw [next]
    have new := counted.newFreed record member
    omega
  · rw [waiters] at used ⊢
    rw [next]
    have new := counted.newWaiter w small used
    omega

theorem Queued.install (queued : Queued leaving k) (free : (k.pool slot).active = false) {sem : Sem}
    (none : sem.queue = []) (pool : k'.pool = Function.update k.pool slot sem) (waiters : k'.waiters = k.waiters)
    (wait : k'.wait = k.wait) : Queued leaving k' := by
  have before := queued.free_slot free
  have here : k'.pool slot = sem := by simp [pool]
  have there : ∀ other, other ≠ slot → k'.pool other = k.pool other := fun other apart => by simp [pool, apart]
  have same : ∀ other, (k'.pool other).queue = (k.pool other).queue := by
    intro other
    by_cases own : other = slot
    · rw [own, here, none, before]
    · rw [there other own]
  refine ⟨fun other w member => ?_, fun other => ?_, fun w small used given => ?_, ?_, ?_⟩
  · rw [same] at member
    have apart : other ≠ slot := by
      rintro rfl
      rw [before] at member
      cases member
    rw [there other apart, waiters]
    exact queued.member other w member
  · rw [same]
    exact queued.once other
  · rw [waiters] at used given ⊢
    rw [same]
    exact queued.queued w small used given
  · rw [waiters, wait]
    exact queued.waits
  · rw [waiters, wait]
    exact queued.placed

theorem Counted.book (counted : Counted k) (active : (k.pool slot).active = true) (after : Sem) {ledger : Ledger}
    (pool : k'.pool = Function.update k.pool slot after)
    (object : after.object = (k.pool slot).object)
    (books : k'.ledger = Function.update k.ledger (k.pool slot).object ledger)
    (others : ∀ object, object ≠ (k.pool slot).object → k'.grants object = k.grants object)
    (balanced : ledger.Balanced after.value (k'.grants (k.pool slot).object).card)
    (value : 0 ≤ after.value ∧ after.value < 2 ^ 31) (empty : after.queue ≠ [] → after.value = 0)
    (freed : k'.freed = k.freed) (next : k'.nextObject = k.nextObject)
    (new : ∀ w < ksemMaxWaiters, (k'.waiters w).active = true → (k'.waiters w).object < k.nextObject) : Counted k' := by
  have here : k'.pool slot = after := by simp [pool]
  have there : ∀ other, other ≠ slot → k'.pool other = k.pool other := fun other apart => by simp [pool, apart]
  have old : ∀ object, object ≠ (k.pool slot).object → k'.ledger object = k.ledger object := by
    intro object' apart
    rw [books, Function.update_of_ne apart]
  have stays : ∀ other, (k'.pool other).active = true → (k.pool other).active = true ∧
      (k'.pool other).object = (k.pool other).object := by
    intro other used
    by_cases own : other = slot
    · rw [own, here]
      exact ⟨active, object⟩
    · rw [there other own] at used ⊢
      exact ⟨used, rfl⟩
  refine ⟨fun other used => ?_, fun record member => ?_, fun other => ?_, fun other waits => ?_,
    fun a b first second equal => ?_, fun record member other used => ?_, fun other used => ?_,
    fun record member => ?_, fun w small used => ?_⟩
  · by_cases own : other = slot
    · rw [own, here, object, books, Function.update_self]
      exact balanced
    · rw [there other own] at used ⊢
      have apart : (k.pool other).object ≠ (k.pool slot).object :=
        fun equal => own (counted.apart other slot used active equal)
      rw [old _ apart, others _ apart]
      exact counted.balance other used
  · rw [freed] at member
    have apart := (counted.gone record member slot active).symm
    rw [old _ apart, others _ apart]
    exact counted.freed record member
  · by_cases own : other = slot
    · rw [own, here]
      exact value
    · rw [there other own]
      exact counted.value other
  · by_cases own : other = slot
    · rw [own, here] at waits ⊢
      exact empty waits
    · rw [there other own] at waits ⊢
      exact counted.empty other waits
  · obtain ⟨usedA, objectA⟩ := stays a first
    obtain ⟨usedB, objectB⟩ := stays b second
    rw [objectA, objectB] at equal
    exact counted.apart a b usedA usedB equal
  · obtain ⟨usedBefore, same⟩ := stays other used
    rw [freed] at member
    rw [same]
    exact counted.gone record member other usedBefore
  · obtain ⟨usedBefore, same⟩ := stays other used
    rw [same, next]
    exact counted.newSem other usedBefore
  · rw [freed] at member
    rw [next]
    exact counted.newFreed record member
  · rw [next]
    exact new w small used

theorem Counted.push (counted : Counted k) (active : (k.pool slot).active = true)
    (unused : (k.waiters w).active = false) (spent : (k.pool slot).value ≤ 0)
    (pool : k'.pool = Function.update k.pool slot { k.pool slot with queue := (k.pool slot).queue ++ [w] })
    (waiters : k'.waiters = Function.update k.waiters w ⟨true, false, t, slot, (k.pool slot).object⟩)
    (ledger : k'.ledger = k.ledger) (freed : k'.freed = k.freed) (next : k'.nextObject = k.nextObject) :
    Counted k' := by
  have grants : ∀ object, k'.grants object = k.grants object := by
    intro object
    ext v
    by_cases own : v = w
    · subst own
      simp [waiters, unused]
    · simp [waiters, own]
  have range := counted.value slot
  apply counted.book active { k.pool slot with queue := (k.pool slot).queue ++ [w] } pool rfl
  · rw [ledger, Function.update_eq_self]
  · exact fun object _ => grants object
  · rw [grants]
    exact counted.balance slot active
  · exact range
  · intro _
    show (k.pool slot).value = 0
    omega
  · exact freed
  · exact next
  · intro v small used
    rw [waiters] at used ⊢
    by_cases own : v = w
    · subst own
      rw [Function.update_self]
      exact counted.newSem slot active
    · rw [Function.update_of_ne own] at used ⊢
      exact counted.newWaiter v small used

theorem Counted.settle (counted : Counted k) (pool : k'.pool = k.pool) (freed : k'.freed = k.freed)
    (next : k'.nextObject = k.nextObject)
    (balanced : ∀ object value, (k.ledger object).Balanced value (k.grants object).card →
      (k'.ledger object).Balanced value (k'.grants object).card)
    (new : ∀ w < ksemMaxWaiters, (k'.waiters w).active = true → (k'.waiters w).object < k.nextObject) : Counted k' := by
  refine ⟨fun other used => ?_, fun record member => ?_, ?_, ?_, ?_, ?_, ?_, ?_, fun w small used => ?_⟩
  · rw [pool] at used ⊢
    exact balanced _ _ (counted.balance other used)
  · rw [freed] at member
    exact balanced _ _ (counted.freed record member)
  · rw [pool]
    exact counted.value
  · rw [pool]
    exact counted.empty
  · rw [pool]
    exact counted.apart
  · rw [pool, freed]
    exact counted.gone
  · rw [pool, next]
    exact counted.newSem
  · rw [freed, next]
    exact counted.newFreed
  · rw [next]
    exact new w small used

theorem Tokens.clear (tokens : Tokens leaving k) (none : (k.pool slot).queue = []) :
    Tokens leaving (k.setSem slot fun _ => Sem.clear) :=
  ⟨tokens.queued.clear none, tokens.counted.clear slot⟩

theorem allocEntry_some (found : allocEntry k = some (slot, k')) : (k.pool slot).active = false ∧
    k'.pool = Function.update k.pool slot { Sem.clear with active := true, id := k.nextId, object := k.nextObject } ∧
    k'.waiters = k.waiters ∧ k'.wait = k.wait ∧ k'.ledger = k.ledger ∧ k'.freed = k.freed ∧
    k'.nextObject = k.nextObject + 1 := by
  unfold allocEntry at found
  split at found
  · cases found
  · rename_i first free
    cases found
    have unused : (k.pool slot).active = false := by simpa using List.find?_some free
    exact ⟨unused, rfl, rfl, rfl, rfl, rfl, rfl⟩

theorem Tokens.takeBack (tokens : Tokens leaving k) (found : allocEntry k = some (slot, k')) :
    Tokens leaving (k'.setSem slot fun _ => Sem.clear) := by
  obtain ⟨free, pool, waiters, wait, ledger, freed, next⟩ := allocEntry_some found
  refine Tokens.congr (tokens.clear (tokens.queued.free_slot free)) ?_ waiters wait ledger freed ?_
  · simp [State.setSem, pool]
  · show k.nextObject ≤ k'.nextObject
    omega

theorem Tokens.publish (tokens : Tokens leaving k) (found : allocEntry k = some (slot, k'))
    (same : ∀ sem, (f sem).queue = sem.queue ∧ (f sem).object = sem.object)
    (value : ∀ sem, 0 ≤ (f sem).value ∧ (f sem).value < 2 ^ 31) :
    Tokens leaving (Ksem.publish (k'.setSem slot f) slot).2 := by
  obtain ⟨free, pool, waiters, wait, ledger, freed, next⟩ := allocEntry_some found
  have here : (k'.setSem slot f).pool slot =
      f { Sem.clear with active := true, id := k.nextId, object := k.nextObject } := by
    rw [setSem_self, pool, Function.update_self]
  have none : ((k'.setSem slot f).pool slot).queue = [] := by
    rw [here, (same _).1]
    rfl
  have object : ((k'.setSem slot f).pool slot).object = k.nextObject := by
    rw [here, (same _).2]
  have update : (k'.setSem slot f).pool = Function.update k.pool slot ((k'.setSem slot f).pool slot) := by
    rw [here]
    simp [State.setSem, pool]
  have noted : Tokens leaving ((k'.setSem slot f).note ((k'.setSem slot f).pool slot).object fun _ =>
      ⟨((k'.setSem slot f).pool slot).value, 0, 0⟩) := by
    refine ⟨tokens.queued.install free none update waiters wait,
      tokens.counted.install none object ?_ update waiters freed ?_ next⟩
    · rw [here]
      exact value _
    · show Function.update k'.ledger _ _ = _
      rw [ledger]
  unfold Ksem.publish
  dsimp only
  split
  · exact noted.clear none
  · rename_i handle k'' opened
    exact noted.allocRef opened

theorem bmod_small {value : UInt32} (small : value.toNat < 2 ^ 31) :
    0 ≤ (value.toNat : Int).bmod (2 ^ 32) ∧ (value.toNat : Int).bmod (2 ^ 32) < 2 ^ 31 := by
  rw [Int.bmod_eq_of_le (by omega) (by omega)]
  omega

theorem Tokens.create (tokens : Tokens leaving k) (name : List UInt8) {value : UInt32} (flags : UInt32)
    (small : value.toNat < 2 ^ 31) : Tokens leaving (Ksem.create k name value flags).2 := by
  unfold Ksem.create
  split
  · exact tokens
  · split
    · exact tokens
    · rename_i slot k' found
      split
      · exact tokens.takeBack found
      · apply tokens.publish found
        · exact fun sem => ⟨rfl, rfl⟩
        · intro sem
          dsimp only
          exact bmod_small small

theorem Tokens.anon (tokens : Tokens leaving k) {value : UInt32} (flags : UInt32) (small : value.toNat < 2 ^ 31) :
    Tokens leaving (Ksem.anon k value flags).2 := by
  unfold Ksem.anon
  split
  · exact tokens
  · rename_i slot k' found
    apply tokens.publish found
    · exact fun sem => ⟨rfl, rfl⟩
    · intro sem
      dsimp only
      exact bmod_small small

theorem Tokens.openNamed (tokens : Tokens leaving k) (name : List UInt8) : Tokens leaving (Ksem.openNamed k name).2 := by
  unfold Ksem.openNamed
  split
  · exact tokens
  · split
    · exact tokens
    · rename_i handle k' opened
      exact tokens.allocRef opened

theorem Tokens.close (tokens : Tokens leaving k) (handle : Nat) : Tokens leaving (Ksem.close k handle).2 := by
  unfold Ksem.close
  split
  · exact tokens
  · exact tokens.dropRef _

theorem Tokens.unlink (tokens : Tokens leaving k) (name : List UInt8) : Tokens leaving (Ksem.unlink k name).2 := by
  unfold Ksem.unlink
  split
  · exact tokens
  · apply Tokens.destroyIfUnused
    exact tokens.keep ⟨rfl, rfl, rfl, rfl⟩

theorem semOf_active {handle : Nat} (found : semOf k handle = some slot) : (k.pool slot).active = true := by
  unfold semOf at found
  split at found
  · cases found
  · split at found
    · rename_i active
      cases found
      exact active
    · cases found

theorem Tokens.takeToken (tokens : Tokens leaving k) (active : (k.pool slot).active = true)
    (some : (k.pool slot).value > 0) : Tokens leaving (Ksem.takeToken k slot) := by
  unfold Ksem.takeToken
  dsimp only
  apply Tokens.destroyIfUnused
  apply Tokens.markOneshot
  apply Tokens.updatePi
  -- Whose priority goes back to what it was makes no difference here.
  have taken : ∀ k'' : State, k''.pool = k.pool → Tokens leaving k'' → ∀ hint : Sem → Option Nat,
      Tokens leaving ((k''.setSem slot fun sem => { sem with value := sem.value - 1, ownerHint := hint sem }).note
        ((k''.setSem slot fun sem => { sem with value := sem.value - 1, ownerHint := hint sem }).pool slot).object
        fun ledger => { ledger with successes := ledger.successes + 1 }) := by
    intro k'' pool tokens hint
    have active' : (k''.pool slot).active = true := by
      rw [pool]
      exact active
    have some' : (k''.pool slot).value > 0 := by
      rw [pool]
      exact some
    have none : (k''.pool slot).queue = [] := by
      by_contra waits
      have zero := tokens.counted.empty slot waits
      omega
    have kept : Queued leaving (k''.setSem slot fun sem => { sem with value := sem.value - 1, ownerHint := hint sem }) :=
      tokens.queued.keep rfl rfl rfl
    refine ⟨kept.congr rfl rfl rfl, ?_⟩
    apply tokens.counted.book active'
      { k''.pool slot with value := (k''.pool slot).value - 1, ownerHint := hint (k''.pool slot) } rfl rfl
    · show Function.update k''.ledger _ _ = _
      rw [setSem_self]
    · intro object _
      rfl
    · have balance := tokens.counted.balance slot active'
      unfold Ledger.Balanced at balance ⊢
      show ((k''.ledger (k''.pool slot).object).initial + (k''.ledger (k''.pool slot).object).posts : Int) =
        (k''.pool slot).value - 1 + (((k''.ledger (k''.pool slot).object).successes + 1 : Nat) : Int) +
          ((k''.grants (k''.pool slot).object).card : Int)
      omega
    · have range := tokens.counted.value slot
      dsimp only
      omega
    · intro waits
      exact absurd none waits
    · rfl
    · rfl
    · exact tokens.counted.newWaiter
  split
  · exact taken k rfl tokens _
  · split
    · exact taken (Ksem.clearDonation k _) rfl (tokens.clearDonation _) _
    · exact taken k rfl tokens _

theorem Queued.push (queued : Queued none k) (active : (k.pool slot).active = true) (idle : k.wait t = .idle)
    (small : w < ksemMaxWaiters) (unused : (k.waiters w).active = false) {forever : Bool}
    (pool : k'.pool = Function.update k.pool slot { k.pool slot with queue := (k.pool slot).queue ++ [w] })
    (waiters : k'.waiters = Function.update k.waiters w ⟨true, false, t, slot, (k.pool slot).object⟩)
    (wait : k'.wait = Function.update k.wait t (.looping w slot forever)) : Queued none k' := by
  -- No waiter in use is the new one, or that of the task.
  have others : ∀ v < ksemMaxWaiters, (k.waiters v).active = true → v ≠ w ∧ (k.waiters v).task ≠ t := by
    intro v small used
    refine ⟨?_, ?_⟩
    · rintro rfl
      rw [unused] at used
      cases used
    · intro same
      have waits := queued.waits v small used
      rw [same, idle] at waits
      cases waits
  have fresh : ∀ slot, w ∉ (k.pool slot).queue := by
    intro slot member
    have used := (queued.member slot w member).2.2.1
    rw [unused] at used
    cases used
  have hereP : k'.pool slot = { k.pool slot with queue := (k.pool slot).queue ++ [w] } := by simp [pool]
  have thereP : ∀ other, other ≠ slot → k'.pool other = k.pool other := fun other apart => by simp [pool, apart]
  have hereW : k'.waiters w = ⟨true, false, t, slot, (k.pool slot).object⟩ := by simp [waiters]
  have thereW : ∀ v, v ≠ w → k'.waiters v = k.waiters v := fun v apart => by simp [waiters, apart]
  have hereT : k'.wait t = .looping w slot forever := by simp [wait]
  have thereT : ∀ u, u ≠ t → k'.wait u = k.wait u := fun u apart => by simp [wait, apart]
  refine ⟨fun other v member => ?_, fun other => ?_, fun v small' used free => ?_, fun v small' used => ?_,
    fun u v slot' _ waits => ?_⟩
  · by_cases own : other = slot
    · rw [own, hereP] at member ⊢
      rcases List.mem_append.mp member with old | last
      · have apart : v ≠ w := by
          rintro rfl
          exact fresh slot old
        rw [thereW v apart]
        exact queued.member slot v old
      · cases List.mem_singleton.mp last
        rw [hereW]
        exact ⟨small, active, rfl, rfl, rfl, rfl⟩
    · rw [thereP other own] at member ⊢
      have apart : v ≠ w := by
        rintro rfl
        exact fresh other member
      rw [thereW v apart]
      exact queued.member other v member
  · by_cases own : other = slot
    · rw [own, hereP]
      exact (queued.once slot).append (List.nodup_singleton w) (by simpa using fresh slot)
    · rw [thereP other own]
      exact queued.once other
  · by_cases own : v = w
    · rw [own, hereW, hereP]
      simp
    · rw [thereW v own] at used free ⊢
      have old := queued.queued v small' used free
      by_cases here : (k.waiters v).sem = slot
      · rw [here] at old ⊢
        rw [hereP]
        exact List.mem_append_left _ old
      · rw [thereP _ here]
        exact old
  · by_cases own : v = w
    · rw [own, hereW, hereT]
      rfl
    · rw [thereW v own] at used ⊢
      rw [thereT _ (others v small' used).2]
      exact queued.waits v small' used
  · by_cases own : u = t
    · rw [own, hereT] at waits ⊢
      cases waits
      rw [hereW]
      exact ⟨small, rfl, rfl, rfl, (by intro doomed; cases doomed), (by intro consuming; cases consuming)⟩
    · rw [thereT u own] at waits ⊢
      obtain ⟨small', used, rest⟩ := queued.placed u v slot' (by simp) waits
      rw [thereW v (others v small' used).1]
      exact ⟨small', used, rest⟩

theorem Queued.grant (queued : Queued none k) {rest : List Nat} (first : (k.pool slot).queue = w :: rest)
    (fit : (k.wait (k.waiters w).task).doomed = false) {hint : Option Nat}
    (pool : k'.pool = Function.update k.pool slot { k.pool slot with queue := rest, ownerHint := hint })
    (waiters : k'.waiters = Function.update k.waiters w { k.waiters w with granted := true })
    (wait : k'.wait = k.wait) : Queued none k' := by
  obtain ⟨small, active, used, free, here, object⟩ := queued.member slot w (by rw [first]; exact List.mem_cons_self)
  have once := queued.once slot
  rw [first, List.nodup_cons] at once
  have hereP : k'.pool slot = { k.pool slot with queue := rest, ownerHint := hint } := by simp [pool]
  have thereP : ∀ other, other ≠ slot → k'.pool other = k.pool other := fun other apart => by simp [pool, apart]
  have hereW : k'.waiters w = { k.waiters w with granted := true } := by simp [waiters]
  have thereW : ∀ v, v ≠ w → k'.waiters v = k.waiters v := fun v apart => by simp [waiters, apart]
  -- Nothing about a waiter changes but whether it has a token.
  have stays : ∀ v, (k'.waiters v).active = (k.waiters v).active ∧ (k'.waiters v).task = (k.waiters v).task ∧
      (k'.waiters v).sem = (k.waiters v).sem := by
    intro v
    by_cases own : v = w
    · rw [own, hereW]
      exact ⟨rfl, rfl, rfl⟩
    · rw [thereW v own]
      exact ⟨rfl, rfl, rfl⟩
  refine ⟨fun other v member => ?_, fun other => ?_, fun v small' used' free' => ?_, fun v small' used' => ?_,
    fun u v slot' _ waits => ?_⟩
  · by_cases own : other = slot
    · rw [own, hereP] at member ⊢
      have apart : v ≠ w := by
        rintro rfl
        exact once.1 member
      rw [thereW v apart]
      exact queued.member slot v (by rw [first]; exact List.mem_cons_of_mem _ member)
    · rw [thereP other own] at member ⊢
      have apart : v ≠ w := by
        rintro rfl
        have elsewhere := (queued.member other v member).2.2.2.2.1
        rw [here] at elsewhere
        exact own elsewhere.symm
      rw [thereW v apart]
      exact queued.member other v member
  · by_cases own : other = slot
    · rw [own, hereP]
      exact once.2
    · rw [thereP other own]
      exact queued.once other
  · have apart : v ≠ w := by
      rintro rfl
      rw [hereW] at free'
      cases free'
    rw [thereW v apart] at used' free' ⊢
    have old := queued.queued v small' used' free'
    by_cases own : (k.waiters v).sem = slot
    · rw [own, first] at old
      rw [own, hereP]
      exact (List.mem_cons.mp old).resolve_left apart
    · rw [thereP _ own]
      exact old
  · rw [(stays v).1] at used'
    rw [(stays v).2.1, (stays v).2.2, wait]
    exact queued.waits v small' used'
  · rw [wait] at waits ⊢
    obtain ⟨small', used', task, sem, doomed, consuming⟩ := queued.placed u v slot' (by simp) waits
    rw [(stays v).1, (stays v).2.1, (stays v).2.2]
    refine ⟨small', used', task, sem, fun fails => ?_, fun takes => ?_⟩
    · have apart : v ≠ w := by
        rintro rfl
        rw [task, fails] at fit
        cases fit
      rw [thereW v apart]
      exact doomed fails
    · by_cases own : v = w
      · rw [own, hereW]
      · rw [thereW v own]
        exact consuming takes

theorem Queued.release (queued : Queued leaving k) (small : w < ksemMaxWaiters) (used : (k.waiters w).active = true)
    (alone : leaving = none ∨ leaving = some (k.waiters w).task)
    (pool : k'.pool = Function.update k.pool (k.waiters w).sem
      { k.pool (k.waiters w).sem with queue := (k.pool (k.waiters w).sem).queue.erase w })
    (waiters : k'.waiters = Function.update k.waiters w Waiter.clear) (wait : k'.wait = k.wait) :
    Queued (some (k.waiters w).task) k' := by
  have hereP : k'.pool (k.waiters w).sem =
      { k.pool (k.waiters w).sem with queue := (k.pool (k.waiters w).sem).queue.erase w } := by simp [pool]
  have thereP : ∀ other, other ≠ (k.waiters w).sem → k'.pool other = k.pool other :=
    fun other apart => by simp [pool, apart]
  have hereW : k'.waiters w = Waiter.clear := by simp [waiters]
  have thereW : ∀ v, v ≠ w → k'.waiters v = k.waiters v := fun v apart => by simp [waiters, apart]
  have remains : ∀ v, (k'.waiters v).active = true → v ≠ w := by
    rintro v used' rfl
    rw [hereW] at used'
    cases used'
  refine ⟨fun other v member => ?_, fun other => ?_, fun v small' used' free => ?_, fun v small' used' => ?_,
    fun u v slot' apart waits => ?_⟩
  · by_cases own : other = (k.waiters w).sem
    · subst own
      rw [hereP] at member ⊢
      obtain ⟨apart, old⟩ := ((queued.once (k.waiters w).sem).mem_erase_iff).mp member
      rw [thereW v apart]
      exact queued.member (k.waiters w).sem v old
    · rw [thereP other own] at member ⊢
      have apart : v ≠ w := by
        rintro rfl
        exact own (queued.member other v member).2.2.2.2.1.symm
      rw [thereW v apart]
      exact queued.member other v member
  · by_cases own : other = (k.waiters w).sem
    · subst own
      rw [hereP]
      exact (queued.once (k.waiters w).sem).erase w
    · rw [thereP other own]
      exact queued.once other
  · have apart := remains v used'
    rw [thereW v apart] at used' free ⊢
    have old := queued.queued v small' used' free
    by_cases own : (k.waiters v).sem = (k.waiters w).sem
    · rw [own] at old ⊢
      rw [hereP]
      exact ((queued.once (k.waiters w).sem).mem_erase_iff).mpr ⟨apart, old⟩
    · rw [thereP _ own]
      exact old
  · have apart := remains v used'
    rw [thereW v apart] at used' ⊢
    rw [wait]
    exact queued.waits v small' used'
  · rw [wait] at waits ⊢
    have still : some u ≠ leaving := by
      rintro rfl
      rcases alone with none | same
      · cases none
      · exact apart same
    obtain ⟨small', used', task, rest⟩ := queued.placed u v slot' still waits
    have differs : v ≠ w := by
      rintro rfl
      exact apart (by rw [task])
    rw [thereW v differs]
    exact ⟨small', used', task, rest⟩

theorem Queued.left (queued : Queued (some t) k)
    (gone : ∀ w < ksemMaxWaiters, (k.waiters w).active = true → (k.waiters w).task ≠ t) :
    Queued none (k.setWait t .idle) := by
  have there : ∀ u, u ≠ t → (k.setWait t .idle).wait u = k.wait u := fun u apart => by simp [State.setWait, apart]
  refine ⟨queued.member, queued.once, queued.queued, fun w small used => ?_, fun u w slot _ waits => ?_⟩
  · show ((k.setWait t .idle).wait (k.waiters w).task).on = _
    rw [there _ (gone w small used)]
    exact queued.waits w small used
  · have apart : u ≠ t := by
      rintro rfl
      simp [State.setWait, Wait.on] at waits
    rw [there u apart] at waits ⊢
    exact queued.placed u w slot (by simpa using apart) waits

theorem Queued.move (queued : Queued none k) (waits : (k.wait t).on = some (w, slot)) {next : Wait}
    (on : next.on = some (w, slot)) (fails : next.doomed = true → (k.waiters w).granted = false)
    (takes : next = .consuming w slot → (k.waiters w).granted = true) : Queued none (k.setWait t next) := by
  have here : (k.setWait t next).wait t = next := by simp [State.setWait]
  have there : ∀ u, u ≠ t → (k.setWait t next).wait u = k.wait u := fun u apart => by simp [State.setWait, apart]
  have same : ∀ u, ((k.setWait t next).wait u).on = (k.wait u).on := by
    intro u
    by_cases own : u = t
    · rw [own, here, on, waits]
    · rw [there u own]
  refine ⟨queued.member, queued.once, queued.queued, fun v small used => ?_, fun u v slot' _ waits' => ?_⟩
  · rw [same]
    exact queued.waits v small used
  · rw [same] at waits'
    obtain ⟨small, used, task, sem, doomed, consuming⟩ := queued.placed u v slot' (by simp) waits'
    refine ⟨small, used, task, sem, ?_⟩
    by_cases own : u = t
    · rw [own, waits] at waits'
      cases waits'
      rw [own, here]
      exact ⟨fails, takes⟩
    · rw [there u own]
      exact ⟨doomed, consuming⟩

theorem Tokens.waitPoll (tokens : Tokens none k) (signal expired : Bool) :
    Tokens none (Ksem.waitPoll k signal expired) := by
  unfold Ksem.waitPoll
  split
  · rename_i w slot forever looping
    have waits : (k.wait k.sched.current).on = some (w, slot) := by rw [looping]; rfl
    have moves : ∀ next : Wait, next.on = some (w, slot) → (next.doomed = true → (k.waiters w).granted = false) →
        (next = .consuming w slot → (k.waiters w).granted = true) → Tokens none (k.setWait k.sched.current next) :=
      fun next on fails takes => ⟨tokens.queued.move waits on fails takes, tokens.counted.congr rfl rfl rfl rfl le_rfl⟩
    split
    · rename_i granted
      exact moves _ rfl (by intro fails; cases fails) (fun _ => granted)
    · rename_i free
      split
      · exact moves _ rfl (fun _ => by simpa using free) (by intro takes; cases takes)
      · split
        · exact moves _ rfl (fun _ => by simpa using free) (by intro takes; cases takes)
        · exact tokens
  · exact tokens

theorem Tokens.waitStart (tokens : Tokens none k) (idle : k.wait k.sched.current = .idle) (handle : Nat)
    (forever tryOnly : Bool) : Tokens none (Ksem.waitStart k handle forever tryOnly).2 := by
  unfold Ksem.waitStart
  split
  · exact tokens
  · rename_i slot found
    have active := semOf_active found
    split
    · rename_i some
      exact tokens.takeToken active some
    · rename_i spent
      split
      · exact tokens
      · split
        · exact tokens
        · rename_i w k' taken
          unfold allocWaiter at taken
          split at taken
          · cases taken
          · rename_i free
            cases taken
            have small : w < ksemMaxWaiters := by simpa using List.mem_of_find?_eq_some free
            have unused : (k.waiters w).active = false := by simpa using List.find?_some free
            obtain ⟨sched, same⟩ := updatePi_frame (waitqPush (k.setWaiter w fun _ =>
              ⟨true, false, k.sched.current, slot, (k.pool slot).object⟩) slot w) slot
            dsimp only
            rw [same]
            exact ⟨tokens.queued.push active idle small unused rfl rfl rfl,
              tokens.counted.push active unused (by omega) rfl rfl rfl rfl rfl⟩

theorem Queued.only (queued : Queued leaving k) (waits : (k.wait t).on = some (w, slot)) {v : Nat}
    (small : v < ksemMaxWaiters) (used : (k.waiters v).active = true) (task : (k.waiters v).task = t) : v = w := by
  have also := queued.waits v small used
  rw [task, waits] at also
  cases also
  rfl

theorem Tokens.leave (tokens : Tokens leaving k) (small : w < ksemMaxWaiters) (used : (k.waiters w).active = true)
    (free : (k.waiters w).granted = false) (alone : leaving = none ∨ leaving = some (k.waiters w).task) :
    Tokens (some (k.waiters w).task) (freeWaiter (waitqRemove k (k.waiters w).sem w) w) := by
  refine ⟨tokens.queued.release small used alone rfl rfl rfl, ?_⟩
  have removed : Counted (waitqRemove k (k.waiters w).sem w) := by
    apply tokens.counted.keep id _ rfl rfl
    intro waits none
    rw [none] at waits
    exact waits rfl
  refine removed.settle rfl rfl rfl ?_ ?_
  · intro object value balanced
    have grants : (freeWaiter (waitqRemove k (k.waiters w).sem w) w).grants object =
        (waitqRemove k (k.waiters w).sem w).grants object := by
      ext v
      by_cases own : v = w
      · subst own
        simp [freeWaiter, waitqRemove, State.setWaiter, State.setSem, Waiter.clear, free]
      · simp [freeWaiter, waitqRemove, State.setWaiter, State.setSem, own]
    rw [grants]
    exact balanced
  · intro v small' used'
    by_cases own : v = w
    · subst own
      simp [freeWaiter, State.setWaiter, Waiter.clear] at used'
    · have same : (freeWaiter (waitqRemove k (k.waiters w).sem w) w).waiters v = k.waiters v := by
        simp [freeWaiter, waitqRemove, State.setWaiter, State.setSem, own]
      rw [same] at used' ⊢
      exact tokens.counted.newWaiter v small' used'

theorem Tokens.consume (tokens : Tokens none k) (small : w < ksemMaxWaiters) (used : (k.waiters w).active = true)
    (granted : (k.waiters w).granted = true) :
    Tokens (some (k.waiters w).task) (freeWaiter (k.note (k.waiters w).object fun ledger =>
      { ledger with successes := ledger.successes + 1 }) w) := by
  -- A waiter with a token is in no queue.
  have outside : w ∉ (k.pool (k.waiters w).sem).queue := by
    intro member
    have free := (tokens.queued.member _ w member).2.2.2.1
    rw [granted] at free
    cases free
  refine ⟨tokens.queued.release small used (.inl rfl) ?_ rfl rfl, ?_⟩
  · rw [List.erase_of_not_mem outside, Function.update_eq_self]
    rfl
  · refine tokens.counted.settle rfl rfl rfl ?_ ?_
    · intro object value balanced
      have grants : (freeWaiter (k.note (k.waiters w).object fun ledger =>
          { ledger with successes := ledger.successes + 1 }) w).grants object = (k.grants object).erase w := by
        ext v
        by_cases own : v = w
        · subst own
          simp [freeWaiter, State.note, State.setWaiter, Waiter.clear]
        · simp [freeWaiter, State.note, State.setWaiter, own]
      rw [grants]
      by_cases own : object = (k.waiters w).object
      · have member : w ∈ k.grants object := mem_grants.mpr ⟨small, used, granted, own.symm⟩
        have card := Finset.card_erase_add_one member
        have books : (freeWaiter (k.note (k.waiters w).object fun ledger =>
            { ledger with successes := ledger.successes + 1 }) w).ledger object =
            { k.ledger object with successes := (k.ledger object).successes + 1 } := by
          simp [freeWaiter, State.note, State.setWaiter, own]
        rw [books]
        unfold Ledger.Balanced at balanced ⊢
        dsimp only
        omega
      · have absent : w ∉ k.grants object := fun member => own (mem_grants.mp member).2.2.2.symm
        have books : (freeWaiter (k.note (k.waiters w).object fun ledger =>
            { ledger with successes := ledger.successes + 1 }) w).ledger object = k.ledger object := by
          simp [freeWaiter, State.note, State.setWaiter, own]
        rw [books, Finset.erase_eq_of_notMem absent]
        exact balanced
    · intro v small' used'
      by_cases own : v = w
      · subst own
        simp [freeWaiter, State.setWaiter, Waiter.clear] at used'
      · have same : (freeWaiter (k.note (k.waiters w).object fun ledger =>
            { ledger with successes := ledger.successes + 1 }) w).waiters v = k.waiters v := by
          simp [freeWaiter, State.note, State.setWaiter, own]
        rw [same] at used' ⊢
        exact tokens.counted.newWaiter v small' used'

theorem destroyIfUnused_frame (k : State) (slot : Nat) :
    (destroyIfUnused k slot).waiters = k.waiters ∧ (destroyIfUnused k slot).wait = k.wait := by
  unfold destroyIfUnused destroy
  split
  · cases (k.pool slot).lendsTo with
    | none => exact ⟨rfl, rfl⟩
    | some owner => exact ⟨rfl, rfl⟩
  · exact ⟨rfl, rfl⟩

theorem Tokens.gone (tokens : Tokens (some t) k)
    (gone : ∀ w < ksemMaxWaiters, (k.waiters w).active = true → (k.waiters w).task ≠ t) :
    Tokens none (k.setWait t .idle) :=
  ⟨tokens.queued.left gone, tokens.counted.congr rfl rfl rfl rfl le_rfl⟩

theorem Tokens.left (tokens : Tokens (some t) k) (waits : (k.wait t).on = some (w, slot))
    (gone : (k.waiters w).active = false) : Tokens none ((Ksem.destroyIfUnused k slot).setWait t .idle) := by
  have seen := tokens.destroyIfUnused slot
  obtain ⟨waiters, wait⟩ := destroyIfUnused_frame k slot
  apply seen.gone
  intro v small used task
  rw [waiters] at used task
  have same := tokens.queued.only waits small used task
  rw [same, gone] at used
  cases used

theorem Tokens.giveUp (tokens : Tokens none k) (waits : (k.wait t).on = some (w, slot))
    (fails : (k.wait t).doomed = true) : Tokens none ((Ksem.giveUp k w slot).setWait t .idle) := by
  obtain ⟨small, used, task, sem, unspent, -⟩ := tokens.queued.placed t w slot (by simp) waits
  have free := unspent fails
  subst task sem
  unfold Ksem.giveUp
  rw [used, free]
  simp only [Bool.not_false, Bool.and_self, if_true]
  obtain ⟨sched, same⟩ := updatePi_frame (waitqRemove k (k.waiters w).sem w) (k.waiters w).sem
  rw [same]
  have away := tokens.leave small used free (.inl rfl)
  have away' : Tokens (some (k.waiters w).task)
      (freeWaiter { waitqRemove k (k.waiters w).sem w with sched := sched } w) :=
    away.congr rfl rfl rfl rfl rfl le_rfl
  apply away'.left (w := w) waits
  simp [freeWaiter, State.setWaiter, Waiter.clear]

theorem Tokens.waitFinish (tokens : Tokens none k) {result : Except Errno Unit}
    (done : Ksem.waitFinish k = some (result, k')) : Tokens none k' := by
  unfold Ksem.waitFinish at done
  dsimp only at done
  split at done
  · rename_i w slot consuming
    cases done
    have waits : (k.wait k.sched.current).on = some (w, slot) := by rw [consuming]; rfl
    obtain ⟨small, used, task, -, -, takes⟩ := tokens.queued.placed _ w slot (by simp) waits
    have taken := tokens.consume small used (takes consuming)
    rw [task] at taken
    apply taken.left (w := w) waits
    simp [freeWaiter, State.setWaiter, Waiter.clear]
  · rename_i w slot interrupted
    cases done
    exact tokens.giveUp (by rw [interrupted]; rfl) (by rw [interrupted]; rfl)
  · rename_i w slot late
    cases done
    exact tokens.giveUp (by rw [late]; rfl) (by rw [late]; rfl)
  · cases done
  · cases done

theorem Counted.grant (counted : Counted k) (active : (k.pool slot).active = true) (small : w < ksemMaxWaiters)
    (used : (k.waiters w).active = true) (free : (k.waiters w).granted = false)
    (object : (k.waiters w).object = (k.pool slot).object) {rest : List Nat}
    (first : (k.pool slot).queue = w :: rest) {hint : Option Nat}
    (pool : k'.pool = Function.update k.pool slot { k.pool slot with queue := rest, ownerHint := hint })
    (waiters : k'.waiters = Function.update k.waiters w { k.waiters w with granted := true })
    (ledger : k'.ledger = Function.update k.ledger (k.pool slot).object
      { k.ledger (k.pool slot).object with posts := (k.ledger (k.pool slot).object).posts + 1 })
    (freed : k'.freed = k.freed) (next : k'.nextObject = k.nextObject) : Counted k' := by
  have spent : (k.pool slot).value = 0 := by
    apply counted.empty slot
    rw [first]
    exact List.cons_ne_nil _ _
  have grants : k'.grants (k.pool slot).object = insert w (k.grants (k.pool slot).object) := by
    ext v
    by_cases own : v = w
    · subst own
      simp [waiters, small, used, object]
    · simp [waiters, own]
  have absent : w ∉ k.grants (k.pool slot).object := by simp [free]
  apply counted.book active { k.pool slot with queue := rest, ownerHint := hint } pool rfl ledger
  · intro other apart
    ext v
    by_cases own : v = w
    · subst own
      simp [waiters, object, apart.symm]
    · simp [waiters, own]
  · have balance := counted.balance slot active
    rw [grants, Finset.card_insert_of_notMem absent]
    unfold Ledger.Balanced at balance ⊢
    dsimp only
    omega
  · exact counted.value slot
  · intro _
    exact spent
  · exact freed
  · exact next
  · intro v small' used'
    rw [waiters] at used' ⊢
    by_cases own : v = w
    · subst own
      rw [Function.update_self]
      exact counted.newWaiter v small used
    · rw [Function.update_of_ne own] at used' ⊢
      exact counted.newWaiter v small' used'

theorem Counted.raise (counted : Counted k) (active : (k.pool slot).active = true) (none : (k.pool slot).queue = [])
    (fit : (k.pool slot).value < 2 ^ 31 - 1)
    (pool : k'.pool = Function.update k.pool slot
      { k.pool slot with value := ((k.pool slot).value + 1).bmod (2 ^ 32), ownerHint := .none })
    (waiters : k'.waiters = k.waiters)
    (ledger : k'.ledger = Function.update k.ledger (k.pool slot).object
      { k.ledger (k.pool slot).object with posts := (k.ledger (k.pool slot).object).posts + 1 })
    (freed : k'.freed = k.freed) (next : k'.nextObject = k.nextObject) : Counted k' := by
  have range := counted.value slot
  have value : ((k.pool slot).value + 1).bmod (2 ^ 32) = (k.pool slot).value + 1 :=
    Int.bmod_eq_of_le (by omega) (by omega)
  have grants : ∀ object, k'.grants object = k.grants object := fun object => by simp [State.grants, waiters]
  rw [value] at pool
  apply counted.book active { k.pool slot with value := (k.pool slot).value + 1, ownerHint := .none } pool rfl ledger
  · exact fun object _ => grants object
  · have balance := counted.balance slot active
    rw [grants]
    unfold Ledger.Balanced at balance ⊢
    dsimp only
    omega
  · dsimp only
    omega
  · intro waits
    exact absurd none waits
  · exact freed
  · exact next
  · rw [waiters]
    exact counted.newWaiter

theorem Tokens.post (tokens : Tokens none k) {handle : Nat} (safe : (Op.post handle).Safe k) :
    Tokens none (Ksem.post k handle).2 := by
  unfold Ksem.post
  split
  · exact tokens
  · rename_i slot found
    have active := semOf_active found
    have fit : takesToken k slot = true := by
      change (semOf k handle).all (takesToken k) = true at safe
      rw [found] at safe
      exact safe
    unfold takesToken at fit
    dsimp only
    apply Tokens.destroyIfUnused
    apply Tokens.markOneshot
    cases first : (k.pool slot).queue with
    | cons w rest =>
      rw [first] at fit
      have fit : (k.wait (k.waiters w).task).doomed = false := by simpa using fit
      obtain ⟨small, -, used, free, -, object⟩ := tokens.queued.member slot w (by rw [first]; exact List.mem_cons_self)
      erw [first]
      dsimp only
      apply Tokens.updatePi
      split
      · exact ⟨tokens.queued.grant first fit rfl rfl rfl,
          tokens.counted.grant active small used free object first rfl rfl rfl rfl rfl⟩
      · split
        · exact ⟨tokens.queued.grant first fit rfl rfl rfl,
            tokens.counted.grant active small used free object first rfl rfl rfl rfl rfl⟩
        · exact ⟨tokens.queued.grant first fit rfl rfl rfl,
            tokens.counted.grant active small used free object first rfl rfl rfl rfl rfl⟩
    | nil =>
      rw [first] at fit
      have fit : (k.pool slot).value < 2 ^ 31 - 1 := of_decide_eq_true fit
      erw [first]
      dsimp only
      have kept : Queued none (k.setSem slot fun sem =>
          { sem with value := (sem.value + 1).bmod (2 ^ 32), ownerHint := none }) := tokens.queued.keep rfl rfl rfl
      split
      · exact ⟨kept.congr rfl rfl rfl, tokens.counted.raise active first fit rfl rfl rfl rfl rfl⟩
      · exact ⟨kept.congr rfl rfl rfl, tokens.counted.raise active first fit rfl rfl rfl rfl rfl⟩

theorem freeWaiter_destroyIfUnused (k : State) (slot w : Nat) :
    freeWaiter (destroyIfUnused k slot) w = destroyIfUnused (freeWaiter k w) slot := by
  unfold destroyIfUnused
  show _ = if canDestroy (k.pool slot) then _ else _
  split
  · have lends : ((freeWaiter k w).pool slot).lendsTo = (k.pool slot).lendsTo := rfl
    unfold destroy
    dsimp only
    rw [lends]
    cases (k.pool slot).lendsTo with
    | none => rfl
    | some owner => rfl
  · rfl

/-- A task that may be ended has been given no token. -/
def Unspent (k : State) (t : Nat) : Prop :=
  ∀ w < ksemMaxWaiters, (k.waiters w).active = true → (k.waiters w).task = t → (k.waiters w).granted = false

theorem Tokens.cleanupWaiter (tokens : Tokens (some t) k) (unspent : Unspent k t) (small : w < ksemMaxWaiters) :
    Tokens (some t) (Ksem.cleanupWaiter t k w) ∧
      ∀ v, ((Ksem.cleanupWaiter t k w).waiters v).active = true → ((Ksem.cleanupWaiter t k w).waiters v).task = t →
        v ≠ w ∧ (Ksem.cleanupWaiter t k w).waiters v = k.waiters v := by
  unfold Ksem.cleanupWaiter
  split
  · rename_i own
    obtain ⟨used, task⟩ : (k.waiters w).active = true ∧ (k.waiters w).task = t := by simpa using own
    have free := unspent w small used task
    dsimp only
    rw [freeWaiter_destroyIfUnused]
    obtain ⟨sched, same⟩ := updatePi_frame (waitqRemove k (k.waiters w).sem w) (k.waiters w).sem
    rw [same]
    have away := tokens.leave small used free (.inr (by rw [task]))
    rw [task] at away
    refine ⟨?_, fun v used' task' => ?_⟩
    · apply Tokens.destroyIfUnused
      exact away.congr rfl rfl rfl rfl rfl le_rfl
    · rw [(destroyIfUnused_frame _ _).1] at used' ⊢
      have apart : v ≠ w := by
        rintro rfl
        simp [freeWaiter, State.setWaiter, Waiter.clear] at used'
      exact ⟨apart, by simp [freeWaiter, waitqRemove, State.setWaiter, State.setSem, apart]⟩
  · rename_i other
    refine ⟨tokens, fun v used task => ⟨?_, rfl⟩⟩
    rintro rfl
    exact other (by simp [used, task])

theorem Tokens.cleanupWaiters (ws : List Nat) (inside : ∀ w ∈ ws, w < ksemMaxWaiters) :
    ∀ {k : State}, Tokens (some t) k → Unspent k t → Tokens (some t) (ws.foldl (Ksem.cleanupWaiter t) k) ∧
      ∀ v, ((ws.foldl (Ksem.cleanupWaiter t) k).waiters v).active = true →
        ((ws.foldl (Ksem.cleanupWaiter t) k).waiters v).task = t →
        v ∉ ws ∧ (ws.foldl (Ksem.cleanupWaiter t) k).waiters v = k.waiters v := by
  induction ws with
  | nil => exact fun tokens _ => ⟨tokens, fun v _ _ => ⟨List.not_mem_nil, rfl⟩⟩
  | cons w ws ih =>
    intro k tokens unspent
    obtain ⟨step, gone⟩ := tokens.cleanupWaiter unspent (inside w List.mem_cons_self)
    have unspent' : Unspent (Ksem.cleanupWaiter t k w) t := by
      intro v small used task
      obtain ⟨-, same⟩ := gone v used task
      rw [same] at used task ⊢
      exact unspent v small used task
    obtain ⟨all, gone'⟩ := ih (fun w member => inside w (List.mem_cons_of_mem _ member)) step unspent'
    refine ⟨all, fun v used task => ?_⟩
    obtain ⟨outside, same⟩ := gone' v used task
    have used' := used
    have task' := task
    rw [List.foldl_cons, same] at used' task'
    obtain ⟨apart, same'⟩ := gone v used' task'
    rw [List.foldl_cons, same, same']
    exact ⟨by simp [apart, outside], rfl⟩

theorem Tokens.taskCleanup (tokens : Tokens none k) (unspent : Unspent k t) : Tokens none (Ksem.taskCleanup k t) := by
  have leaving : Tokens (some t) k := by
    refine ⟨⟨tokens.queued.member, tokens.queued.once, tokens.queued.queued, tokens.queued.waits, ?_⟩, tokens.counted⟩
    exact fun u w slot _ waits => tokens.queued.placed u w slot (by simp) waits
  obtain ⟨cleaned, gone⟩ := Tokens.cleanupWaiters (List.range ksemMaxWaiters) (by simp) leaving unspent
  -- What is left to do does not touch a waiter.
  let Done (k : State) : Prop := Tokens (some t) k ∧
    ∀ w < ksemMaxWaiters, (k.waiters w).active = true → (k.waiters w).task ≠ t
  have start : Done ((List.range ksemMaxWaiters).foldl (Ksem.cleanupWaiter t) k) := by
    refine ⟨cleaned, fun w small used task => ?_⟩
    exact (gone w used task).1 (by simpa using small)
  have finished : Done ((List.range ksemMaxHandleRefs).foldl (cleanupRef t) ((List.range ksemMax).foldl (cleanupOwner t)
      ((List.range ksemMaxWaiters).foldl (Ksem.cleanupWaiter t) k))) := by
    apply List.foldlRecOn (motive := Done)
    · apply List.foldlRecOn (motive := Done) _ _ start
      rintro k ⟨tokens, gone⟩ slot -
      unfold cleanupOwner
      split
      · obtain ⟨sched, same⟩ := updatePi_frame ((if (k.pool slot).flags &&& ksemRt ≠ 0 then Ksem.clearDonation k t
          else k).setSem slot fun sem => { sem with ownerHint := none }) slot
        dsimp only
        rw [same]
        have kept : Tokens (some t) (k.setSem slot fun sem => { sem with ownerHint := none }) :=
          tokens.keep ⟨rfl, rfl, rfl, rfl⟩
        split
        · exact ⟨kept.congr rfl rfl rfl rfl rfl le_rfl, gone⟩
        · exact ⟨kept.congr rfl rfl rfl rfl rfl le_rfl, gone⟩
      · exact ⟨tokens, gone⟩
    · rintro k ⟨tokens, gone⟩ i -
      unfold cleanupRef
      split
      · refine ⟨tokens.dropRef i, ?_⟩
        unfold Ksem.dropRef
        split
        · rw [(destroyIfUnused_frame _ _).1]
          exact gone
        · exact gone
      · exact ⟨tokens, gone⟩
  exact finished.1.gone finished.2

/-- One safe step keeps every token. -/
theorem Tokens.exec (tokens : Tokens none k) {op : Op} (valid : op.Valid k) (safe : op.Safe k)
    (done : Ksem.exec k op = .ok k') : Tokens none k' := by
  cases op with
  | turn op =>
    unfold Ksem.exec at done
    dsimp only at done
    split at done
    · cases done
      exact tokens.congr rfl rfl rfl rfl rfl le_rfl
    · cases done
  | create name value flags =>
    rw [← Except.ok.inj done]
    exact tokens.create name flags safe
  | anon value flags =>
    rw [← Except.ok.inj done]
    exact tokens.anon flags safe
  | openNamed name =>
    rw [← Except.ok.inj done]
    exact tokens.openNamed name
  | close handle =>
    rw [← Except.ok.inj done]
    exact tokens.close handle
  | unlink name =>
    rw [← Except.ok.inj done]
    exact tokens.unlink name
  | post handle =>
    rw [← Except.ok.inj done]
    exact tokens.post safe
  | wait handle forever tryOnly =>
    rw [← Except.ok.inj done]
    exact tokens.waitStart valid handle forever tryOnly
  | poll signal expired =>
    rw [← Except.ok.inj done]
    exact tokens.waitPoll signal expired
  | finish =>
    unfold Ksem.exec at done
    dsimp only at done
    split at done
    · rename_i result k'' finished
      cases done
      exact tokens.waitFinish finished
    · cases done
      exact tokens
  | cleanup t =>
    rw [← Except.ok.inj done]
    exact tokens.taskCleanup safe

theorem Queued.promised (queued : Queued none k) (object : Nat) : k.promised object = k.grants object := by
  apply Finset.filter_true_of_mem
  intro w member
  obtain ⟨small, used, granted, -⟩ := mem_grants.mp member
  have waits := queued.waits w small used
  refine ⟨waits, ?_⟩
  by_contra fails
  have free := (queued.placed _ w _ (by simp) waits).2.2.2.2.1 (by simpa using fails)
  rw [granted] at free
  cases free

theorem Tokens.conserved (tokens : Tokens none k) : Conserved k := by
  refine ⟨fun slot _ active => ?_, fun record member => ?_, fun t w slot waits fails => ?_, fun slot _ => ?_,
    fun slot _ => tokens.counted.empty slot⟩
  · rw [tokens.queued.promised]
    exact tokens.counted.balance slot active
  · rw [tokens.queued.promised]
    exact tokens.counted.freed record member
  · exact (tokens.queued.placed t w slot (by simp) waits).2.2.2.2.1 fails
  · exact (tokens.counted.value slot).1

end

theorem tokens_ksemInit : Tokens none ksemInit := by
  refine ⟨⟨fun slot w member => ?_, fun slot => ?_, fun w _ used => ?_, fun w _ used => ?_, fun t w slot _ waits => ?_⟩,
    ⟨fun slot active => ?_, fun record member => ?_, fun slot => ?_, fun slot waits => ?_, fun a b active => ?_,
      fun record member => ?_, fun slot active => ?_, fun record member => ?_, fun w _ used => ?_⟩⟩
  · cases member
  · exact List.nodup_nil
  · cases used
  · cases used
  · cases waits
  · cases active
  · cases member
  · show 0 ≤ (0 : Int) ∧ (0 : Int) < 2 ^ 31
    decide
  · exact absurd rfl waits
  · cases active
  · cases member
  · cases active
  · cases member
  · cases used

/-- In every run of safe steps, no token of any semaphore is lost or made up. -/
theorem run_tokens_conserved {k : State} (run : Run exec (fun k op => op.Valid k ∧ op.Safe k) ksemInit k) :
    Conserved k := by
  have tokens : Tokens none k := by
    induction run with
    | start => exact tokens_ksemInit
    | call op _ allow done ih => exact ih.exec allow.1 allow.2 done
  exact tokens.conserved

/-- A task waits for a semaphore without a token, the task that created it gives it one, and the wait returns. -/
def waitedAndPosted : List Op :=
  [.create [97] 0 0, .turn (.createTask 64), .turn .block, .openNamed [97], .wait 2 false false, .poll false false,
    .turn (.unblock 0), .turn .exception, .post 1, .turn .block, .poll true true, .finish]

/-- The same, but the token is given between the last test of the wait and the section that ends it. -/
def postedTooLate : List Op :=
  [.create [97] 0 0, .turn (.createTask 64), .turn .block, .openNamed [97], .wait 2 false false, .poll false true,
    .turn (.unblock 0), .turn .exception, .post 1, .turn .block, .finish]

theorem posts_seen :
    (runList exec (fun k op => op.Valid k ∧ op.Safe k) ksemInit waitedAndPosted).any
      (fun k => (k.ledger 0).posts = 1 ∧ (k.ledger 0).successes = 1) = true ∧
    (runList exec (fun k op => op.Valid k) ksemInit postedTooLate).any
      (fun k => (k.pool 0).active = true ∧ (k.pool 0).object = 0 ∧ (k.pool 0).value = 0 ∧ (k.ledger 0).initial = 0 ∧
        (k.ledger 0).posts = 1 ∧ (k.ledger 0).successes = 0 ∧ k.wait 2 = .idle ∧ k.promised 0 = ∅) = true := by
  decide +kernel

theorem run_tokens_conserved_waitedAndPosted :
    ∃ k, Run exec (fun k op => op.Valid k ∧ op.Safe k) ksemInit k ∧ (k.ledger 0).posts = 1 ∧
      (k.ledger 0).successes = 1 ∧ Conserved k := by
  obtain ⟨k, run, seen⟩ := runList_any posts_seen.1
  obtain ⟨posts, successes⟩ := of_decide_eq_true seen
  exact ⟨k, run, posts, successes, run_tokens_conserved run⟩

/-- A wait that times out can take a token with it: the token was posted, but is nowhere any more. -/
theorem token_lost_on_timeout : ¬ ∀ k, Run exec (fun k op => op.Valid k) ksemInit k → Conserved k := by
  intro always
  obtain ⟨k, run, seen⟩ := runList_any posts_seen.2
  obtain ⟨active, object, value, initial, posts, successes, -, none⟩ := of_decide_eq_true seen
  have balance := (always k run).balance 0 (by decide) active
  unfold Ledger.Balanced at balance
  rw [object, value, initial, posts, successes, none, Finset.card_empty] at balance
  simp at balance

end Enlil.Ksem
