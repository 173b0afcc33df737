import Enlil.Pmm.SlabCalls

/-! Runs of the slab heap under clients that write only into the usable bytes of live objects. -/

namespace Enlil.Pmm

open AlignedBlock

/-- The nodes of the free list of a class, as the links in memory give them. -/
def FreeList (h : Heap) (ci : Nat) (nodes : List Nat) : Prop :=
  Chain (nextOf h.mem) 0 (h.slabCaches ci).freeHead nodes

/-- An object is on its free list. -/
def FreeObj (h : Heap) : Obj → Prop
  | .slab ci raw => ∃ nodes, FreeList h ci nodes ∧ raw ∈ nodes
  | .large _ _ => False

section

variable {own : Nat → Holder} {use : Nat → Option PageUse} {free : Nat → List Nat}
  {live : List Obj} {h : Heap}

theorem HeapSound.freeObj_slab (sound : HeapSound own use free live h) {ci raw : Nat} :
    FreeObj h (.slab ci raw) ↔ raw ∈ free ci := by
  constructor
  · rintro ⟨nodes, chain, member⟩
    rwa [chain.unique (sound.chain ci)] at member
  · exact fun member => ⟨free ci, sound.chain ci, member⟩

theorem HeapSound.place (sound : HeapSound own use free live h) {o : Obj} {addr : Nat}
    (object : o ∈ live ∨ FreeObj h o) (holds : o.Holds addr) :
    ∃ page, idxToPa page ≤ addr ∧ addr < idxToPa page + pageSize ∧
      match o with
      | .slab ci raw => use page = some (.slab ci) ∧ Slot use ci raw
      | .large idx order => use page = some (.large idx order) := by
  obtain ⟨low, high⟩ := holds
  cases o with
  | slab ci raw =>
    have slot : Slot use ci raw := by
      rcases object with alive | free
      · exact (sound.liveSlab alive).1
      · exact sound.slots (sound.freeObj_slab.mp free)
    obtain ⟨page, used, above, below, _⟩ := slot.bytes sound
    simp only [Obj.start, Obj.size] at low high
    exact ⟨page, by omega, by omega, used, slot⟩
  | large idx order =>
    rcases object with alive | free
    · obtain ⟨page, used, below, above⟩ := sound.large_page alive low high
      exact ⟨page, below, above, used⟩
    · exact free.elim

theorem HeapSound.apart (sound : HeapSound own use free live h) {o o' : Obj} {addr : Nat}
    (object : o ∈ live ∨ FreeObj h o) (object' : o' ∈ live ∨ FreeObj h o')
    (holds : o.Holds addr) (holds' : o'.Holds addr) : o = o' := by
  obtain ⟨page, low, high, used⟩ := sound.place object holds
  obtain ⟨page', low', high', used'⟩ := sound.place object' holds'
  obtain rfl : page = page' := page_unique _ low high low' high'
  -- The use of the common page tells the kinds apart.
  cases o with
  | slab ci raw =>
    cases o' with
    | slab ci' raw' =>
      obtain ⟨rfl, rfl⟩ := used.2.unique used'.2 holds.1 holds.2 holds'.1 holds'.2
      rfl
    | large idx' order' =>
      have both := used.1.symm.trans used'
      simp at both
  | large idx order =>
    cases o' with
    | slab ci' raw' =>
      have both := used.symm.trans used'.1
      simp at both
    | large idx' order' =>
      have both := used.symm.trans used'
      simpa using both

theorem HeapSound.holds_ptr (sound : HeapSound own use free live h) {o : Obj}
    (object : o ∈ live ∨ FreeObj h o) : o.Holds o.ptr := by
  cases o with
  | slab ci raw =>
    have size : 32 ≤ slabSize ci := by
      rcases object with alive | free
      · exact sound.slot_size (sound.liveSlab alive).1
      · exact sound.slot_size (sound.slots (sound.freeObj_slab.mp free))
    simp only [Obj.Holds, Obj.start, Obj.size, Obj.ptr, slabUserFromRaw, slabRedzoneSz]
    omega
  | large idx order =>
    have size := Nat.two_pow_pos order
    simp only [Obj.Holds, Obj.start, Obj.size, Obj.ptr, slabHdrSize, pageSize]
    omega

theorem HeapSound.slot_header (sound : HeapSound own use free live h) {ci raw : Nat}
    (slot : Slot use ci raw) :
    slabUserFromRaw raw ≠ 0 ∧ ci < slabNumClasses ∧
      hdrClass h.mem (pageMask (slabUserFromRaw raw)) = ci ∧
      hdrMagic h.mem (pageMask (slabUserFromRaw raw)) = slabMagicLive := by
  have size := sound.slot_size slot
  obtain ⟨page, used, above, below, _⟩ := slot.bytes sound
  obtain ⟨bound, header⟩ := sound.slabPage used
  have mask : pageMask (slabUserFromRaw raw) = idxToPa page := by
    simp only [pageMask, slabUserFromRaw, slabRedzoneSz, idxToPa, pmmBase, pageSize] at *
    omega
  refine ⟨?_, bound, ?_, ?_⟩
  · simp only [slabUserFromRaw, slabRedzoneSz]
    omega
  · rw [mask]
    exact header.cls
  · rw [mask]
    exact header.magic

theorem HeapSound.kfree_slot (sound : HeapSound own use free live h) {ci raw : Nat}
    (slot : Slot use ci raw) :
    kfree h (slabUserFromRaw raw) =
      if slabValidateCanaries h (slabUserFromRaw raw) ci then .ok (pushFree h ci raw)
      else .error (.panic "heap/slab canary corrotto") := by
  obtain ⟨real, bound, cls, magic⟩ := sound.slot_header slot
  have small : ci ≠ slabClassLarge := by
    simp only [slabNumClasses, slabClassLarge] at *
    omega
  rw [kfree, if_neg real]
  simp only [cls, magic]
  rw [if_neg (by decide), if_neg (by simp), if_neg small, if_neg (by omega)]
  rfl

theorem HeapSound.pmmDebugCheckPtr_slot (sound : HeapSound own use free live h) {ci raw : Nat}
    (slot : Slot use ci raw) :
    pmmDebugCheckPtr h (slabUserFromRaw raw) = slabValidateCanaries h (slabUserFromRaw raw) ci := by
  obtain ⟨real, bound, cls, magic⟩ := sound.slot_header slot
  have small : ci ≠ slabClassLarge := by
    simp only [slabNumClasses, slabClassLarge] at *
    omega
  rw [pmmDebugCheckPtr, if_neg real]
  simp only [cls, magic]
  rw [if_neg (by simp), if_neg small, if_neg (by omega)]

theorem HeapSound.validate_live (sound : HeapSound own use free live h) {ci raw : Nat}
    (alive : .slab ci raw ∈ live) : slabValidateCanaries h (slabUserFromRaw raw) ci = true := by
  obtain ⟨_, _, canaries⟩ := sound.liveSlab alive
  simp [slabValidateCanaries, slabRawFromUserPtr, slabUserFromRaw, sound.sizes, canaries.head, canaries.tail]

theorem HeapSound.validate_free (sound : HeapSound own use free live h) {ci raw : Nat}
    (member : raw ∈ free ci) : slabValidateCanaries h (slabUserFromRaw raw) ci = false := by
  have link := sound.link_ne_canary member
  simp [slabValidateCanaries, slabRawFromUserPtr, slabUserFromRaw, link]

theorem releaseRun_block {idx : Nat} (count : Nat) (inside : idx + count ≤ numPages) (p : Nat) :
    releaseRun own (idxToPa idx) count p =
      if idx ≤ p ∧ p < idx + count then (own p).released else own p := by
  induction count with
  | zero =>
    rw [if_neg (by omega)]
    rfl
  | succ count ih =>
    have managed : unmanaged (idxToPa idx + count * pageSize) = false := by
      have := unmanaged_idxToPa.mpr (show idx + count < numPages by omega)
      simpa [idxToPa, Nat.add_mul, Nat.add_assoc] using this
    have start : unmanaged (idxToPa idx) = false := unmanaged_idxToPa.mpr (by omega)
    have first : pageOf (idxToPa idx) = idx := by
      simp only [pageOf, pageMask, paToIdx, idxToPa, pmmBase, pageSize]
      omega
    have named : pageOf (idxToPa idx + count * pageSize) = idx + count := by
      rw [pageOf_add start, first]
    have before := ih (by omega)
    rw [releaseRun, release_eq managed named]
    by_cases last : p = idx + count
    · subst last
      rw [Function.update_self, ih (by omega), if_neg (by omega), if_pos (by omega)]
    · rw [Function.update_of_ne last, before]
      by_cases low : idx ≤ p ∧ p < idx + count
      · rw [if_pos low, if_pos (by omega)]
      · rw [if_neg low, if_neg (by omega)]

theorem HeapSound.kfree_large (sound : HeapSound own use free live h) {idx order : Nat}
    (alive : .large idx order ∈ live) :
    ∃ own' use' h', kfree h (idxToPa idx + slabHdrSize) = .ok h' ∧
      HeapSound own' use' free (live.filter (· ≠ .large idx order)) h' := by
  obtain ⟨bound, pages, header, aux⟩ := sound.liveLarge alive
  have real : idxToPa idx + slabHdrSize ≠ 0 := by
    simp only [slabHdrSize]
    omega
  have mask : pageMask (idxToPa idx + slabHdrSize) = idxToPa idx := by
    simp only [pageMask, slabHdrSize, idxToPa, pmmBase, pageSize]
    omega
  -- Every page of the block is held by the heap with one reference.
  have client : ∀ p, Covers idx order p → own p = .client 1 := fun p covers => sound.held (pages p covers)
  have inside : idx + 2 ^ order ≤ numPages := by
    have size := Nat.two_pow_pos order
    have last := client (idx + (2 ^ order - 1)) ⟨by omega, by omega⟩
    have := sound.sound.managed (p := idx + (2 ^ order - 1)) (by simp [last])
    omega
  have held : ∀ i < 1 <<< order, Holds own (idxToPa idx + i * pageSize) := by
    intro i below
    rw [Nat.one_shiftLeft] at below
    have address : idxToPa idx + i * pageSize = idxToPa (idx + i) := by
      simp only [idxToPa, pageSize]
      omega
    have named : pageOf (idxToPa (idx + i)) = idx + i := by
      simp only [pageOf, pageMask, paToIdx, idxToPa, pmmBase, pageSize]
      omega
    rw [address]
    exact ⟨unmanaged_idxToPa.mpr (by omega), 1, by rw [named]; exact client _ ⟨by omega, by omega⟩⟩
  obtain ⟨b, freed, buddy⟩ := sound.sound.freeRun (1 <<< order) held
  have released : ∀ p, releaseRun own (idxToPa idx) (1 <<< order) p =
      if Covers idx order p then .pool else own p := by
    intro p
    rw [releaseRun_block _ (by rw [Nat.one_shiftLeft]; exact inside), Nat.one_shiftLeft]
    by_cases covers : Covers idx order p
    · rw [if_pos (show idx ≤ p ∧ p < idx + 2 ^ order from covers), if_pos covers, client p covers]
      rfl
    · rw [if_neg (show ¬ (idx ≤ p ∧ p < idx + 2 ^ order) from covers), if_neg covers]
  -- Once the object is forgotten its pages may go, and then nobody relies on its header.
  have emptied := (sound.forget (.large idx order)).reuse
    (fun p => if Covers idx order p then none else use p) buddy (by
      intro p u used counted
      have outside : ¬ Covers idx order p := by
        intro covers
        have same : PageUse.large idx order = u := by simpa [pages p covers] using used
        simpa using counted same.symm
      simpa [outside] using used) (by
      intro p u used
      by_cases covers : Covers idx order p
      · simp [covers] at used
      · rw [released, if_neg covers]
        exact sound.held (by simpa [covers] using used)) (by
      intro p ci used
      by_cases covers : Covers idx order p
      · simp [covers] at used
      · exact sound.slabPage (by simpa [covers] using used))
  have pool : releaseRun own (idxToPa idx) (1 <<< order) idx = .pool := by
    rw [released, if_pos (covers_base idx order)]
  have framed := emptied.frame (writeLe h.mem (idxToPa idx + 2) 2 slabMagicFree)
    fun addr guarded => writeLe_outside (by
      by_contra here
      exact emptied.unguarded_pool pool addr (by omega) (by simp only [pageSize]; omega) guarded)
  refine ⟨_, _, _, ?_, framed⟩
  rw [kfree, if_neg real]
  simp only [mask, header.cls, header.magic, aux]
  rw [if_neg (by decide), if_neg (by simp), if_pos trivial, physFreePages, freed]
  rfl

theorem HeapSound.kfree_live (sound : HeapSound own use free live h) {o : Obj} (alive : o ∈ live) :
    ∃ own' use' free' h', kfree h o.ptr = .ok h' ∧
      HeapSound own' use' free' (live.filter (· ≠ o)) h' := by
  cases o with
  | slab ci raw =>
    obtain ⟨slot, notFree, _⟩ := sound.liveSlab alive
    have pushed := (sound.forget (.slab ci raw)).push slot notFree (by simp)
    refine ⟨own, use, _, _, ?_, pushed⟩
    rw [Obj.ptr, sound.kfree_slot slot, if_pos (sound.validate_live alive)]
  | large idx order =>
    obtain ⟨own', use', h', freed, sound'⟩ := sound.kfree_large alive
    exact ⟨own', use', free, h', freed, sound'⟩

theorem HeapSound.freeCount_eq (sound : HeapSound own use free live h) (ci : Nat) :
    (h.slabCaches ci).freeCount.toNat = (free ci).length := by
  -- Distinct objects have distinct addresses, all below the end of managed memory.
  have subset : (free ci).toFinset ⊆ Finset.range pmmEnd := by
    intro raw member
    obtain ⟨page, used, _, below, _⟩ := (sound.slots (List.mem_toFinset.mp member)).bytes sound
    have size := sound.slot_size (sound.slots (List.mem_toFinset.mp member))
    have managed := sound.sound.managed (p := page) (by simp [sound.held used])
    rw [Finset.mem_range]
    simp only [idxToPa, numPages, pmmBase, pmmEnd, pageSize] at below managed ⊢
    omega
  have bound := Finset.card_le_card subset
  rw [List.toFinset_card_of_nodup (sound.nodup ci), Finset.card_range] at bound
  rw [sound.count, UInt32.toNat_ofNat_of_lt']
  exact Nat.lt_of_le_of_lt bound (by decide)

theorem HeapSound.warmLoop {ci : Nat} {count : UInt32} (bound : ci < slabNumClasses) (fuel : Nat) :
    ∀ {own : Nat → Holder} {use : Nat → Option PageUse} {free : Nat → List Nat} {h h' : Heap},
      HeapSound own use free live h → count.toNat ≤ (free ci).length + fuel →
      warmLoop h ci count fuel = .ok h' →
      count ≤ (h'.slabCaches ci).freeCount ∧ ∃ own' use' free', HeapSound own' use' free' live h' := by
  -- Every round adds at least one free object to the class.
  induction fuel with
  | zero =>
    intro own use free h h' sound enough returned
    cases returned
    refine ⟨UInt32.le_iff_toNat_le.mpr ?_, own, use, free, sound⟩
    rw [sound.freeCount_eq ci]
    exact enough
  | succ fuel ih =>
    intro own use free h h' sound enough returned
    rw [Pmm.warmLoop] at returned
    split at returned
    · obtain ⟨h₁, refilled, rest⟩ := bind_ok returned
      obtain ⟨own₁, use₁, free₁, sound₁, grown⟩ := sound.slabRefill bound refilled
      exact ih sound₁ (by omega) rest
    · rename_i full
      cases returned
      exact ⟨UInt32.not_lt.mp full, own, use, free, sound⟩

theorem HeapSound.slabWarm (sound : HeapSound own use free live h) {size count : UInt32} {h' : Heap}
    (returned : slabWarm h size count = .ok h') :
    (∀ {ci}, slabClassFor size = some ci → count ≤ (h'.slabCaches ci).freeCount) ∧
      ∃ own' use' free', HeapSound own' use' free' live h' := by
  rw [Pmm.slabWarm] at returned
  cases found : slabClassFor size with
  | some ci =>
    simp only [found] at returned
    obtain ⟨filled, kept⟩ := HeapSound.warmLoop (slabClassFor_lt found) count.toNat sound (by omega) returned
    refine ⟨?_, kept⟩
    rintro _ ⟨⟩
    exact filled
  | none =>
    simp only [found] at returned
    cases returned
    exact ⟨by simp, own, use, free, sound⟩

end

theorem largeOrder_room (pages order fuel : Nat) (enough : pages ≤ 2 ^ (order + fuel)) :
    pages ≤ 2 ^ largeOrder pages order fuel := by
  induction fuel generalizing order with
  | zero => exact enough
  | succ fuel ih =>
    rw [largeOrder]
    split
    · exact ih (order + 1) (by rwa [Nat.add_right_comm])
    · rename_i large
      rw [Nat.one_shiftLeft] at large
      omega

theorem objOf_room {size : UInt32} {ptr : Nat} {o : Obj} (gives : objOf size ptr = some o)
    (pointer : o.ptr = ptr) (fits : size.toNat + slabHdrSize + pageSize ≤ 2 ^ 32) {i : Nat}
    (inside : i < size.toNat) : o.Usable (ptr + i) := by
  unfold objOf at gives
  split at gives
  · cases gives
  split at gives
  · rename_i ci found
    cases gives
    have usable : size.toNat ≤ slabUsableSize ci := by
      simpa using List.find?_some found
    simp only [Obj.Usable, Obj.ptr, slabUsableSize, slabUserFromRaw, slabRedzoneSz] at *
    omega
  · cases gives
    -- The number of pages is rounded up from the bytes of the request and its header.
    have pages : (largePages size).toNat = (size.toNat + 8 + 4096 - 1) / 4096 := by
      simp only [slabHdrSize, pageSize] at fits
      simp only [largePages, slabHdrSize, pageSize, UInt32.toNat_shiftRight, UInt32.toNat_sub,
        UInt32.toNat_add, UInt32.toNat_ofNat', UInt32.toNat_ofNat, Nat.shiftRight_eq_div_pow,
        Nat.reducePow, Nat.reduceMod]
      omega
    have room := largeOrder_room (largePages size).toNat 0 20 (by
      have := size.toNat_lt
      simp only [slabHdrSize, pageSize] at fits
      omega)
    simp only [Obj.Usable, Obj.ptr, slabHdrSize, pageSize] at *
    omega

/-- The heap together with the objects that clients hold. -/
structure HeapSession where
  heap : Heap
  live : List Obj

inductive HeapOp where
  | kmalloc (size : UInt32)
  | kfree (ptr : Nat)
  | slabWarm (size count : UInt32)
  | store (addr : Nat) (value : UInt8)
  deriving DecidableEq, Repr

/-- One call or write, with the live objects following what the call promises its clients. -/
def HeapSession.exec (t : HeapSession) : HeapOp → Except Halt HeapSession
  | .kmalloc size => do
    let (ptr, h) ← kmalloc t.heap size
    return ⟨h, (objOf size ptr).toList ++ t.live⟩
  | .kfree ptr => do
    let h ← kfree t.heap ptr
    return ⟨h, t.live.filter (·.ptr ≠ ptr)⟩
  | .slabWarm size count => do
    let h ← slabWarm t.heap size count
    return ⟨h, t.live⟩
  | .store addr value => .ok ⟨{ t.heap with mem := Function.update t.heap.mem addr value }, t.live⟩

/-- A byte of a page on a buddy list, where the allocator keeps the nodes of its lists. -/
def InFreePage (h : Heap) (addr : Nat) : Prop :=
  ∃ order idx page, h.buddy.FreeBlock order idx ∧ Covers idx order page ∧
    idxToPa page ≤ addr ∧ addr < idxToPa page + pageSize

/-- Clients write only into usable bytes of live objects, and free what is live or already free. -/
def Disciplined (t : HeapSession) : HeapOp → Prop
  | .kfree ptr => ptr = 0 ∨ ∃ o, (o ∈ t.live ∨ FreeObj t.heap o) ∧ o.ptr = ptr
  | .store addr _ => (∃ o ∈ t.live, o.Usable addr) ∨ InFreePage t.heap addr
  | _ => True

def bootCache (ci : Nat) : SlabCache := ⟨0, slabSize ci, 0, 0⟩

/-- The heap over a built buddy allocator, before any object exists. -/
def bootHeap (reserved : Nat → Bool) (blocks : List (Nat × Nat)) (mem : Bytes) : HeapSession :=
  ⟨⟨bootBuddy reserved blocks, mem, bootCache⟩, []⟩

/--
The heap keeps its objects apart.

Free lists are finite and without duplicates, live and free objects do not meet, an allocation never overlaps a live object, and freeing an object that is already free stops at the canary.
-/
structure HeapSession.Intact (t : HeapSession) : Prop where
  listed : ∀ ci, ∃ nodes, FreeList t.heap ci nodes
  nodup : ∀ {ci nodes}, FreeList t.heap ci nodes → nodes.Nodup
  liveNodup : t.live.Nodup
  notBoth : ∀ {o}, o ∈ t.live → ¬ FreeObj t.heap o
  apart : ∀ {o o' addr}, o ∈ t.live ∨ FreeObj t.heap o → o' ∈ t.live ∨ FreeObj t.heap o' →
    o ≠ o' → o.Holds addr → ¬ o'.Holds addr
  exclusive : ∀ {size ptr h o o' addr}, kmalloc t.heap size = .ok (ptr, h) →
    objOf size ptr = some o → o' ∈ t.live → o.Holds addr → ¬ o'.Holds addr
  room : ∀ {size ptr h o i}, kmalloc t.heap size = .ok (ptr, h) → objOf size ptr = some o →
    size.toNat + slabHdrSize + pageSize ≤ 2 ^ 32 → i < size.toNat → o.Usable (ptr + i)
  doubleFree : ∀ {o}, FreeObj t.heap o →
    kfree t.heap o.ptr = .error (.panic "heap/slab canary corrotto")
  freeReturns : ∀ {o}, o ∈ t.live → ∃ h, kfree t.heap o.ptr = .ok h
  checked : ∀ {o}, FreeObj t.heap o → pmmDebugCheckPtr t.heap o.ptr = false
  warmed : ∀ {size count h ci}, slabWarm t.heap size count = .ok h → slabClassFor size = some ci →
    count ≤ (h.slabCaches ci).freeCount

/-- The invariant of a session. -/
def HeapSession.Sound (t : HeapSession) : Prop :=
  ∃ own use free, HeapSound own use free t.live t.heap

theorem HeapSession.Sound.intact {t : HeapSession} (sound : t.Sound) : t.Intact := by
  obtain ⟨own, use, free, sound⟩ := sound
  refine
    { listed := fun ci => ⟨free ci, sound.chain ci⟩
      nodup := ?_
      liveNodup := sound.liveNodup
      notBoth := ?_
      apart := fun object object' different holds holds' =>
        different (sound.apart object object' holds holds')
      exclusive := ?_
      room := ?_
      doubleFree := ?_
      freeReturns := ?_
      checked := ?_
      warmed := fun returned found => (sound.slabWarm returned).1 found }
  · intro ci nodes listed
    rw [listed.unique (sound.chain ci)]
    exact sound.nodup ci
  · intro o alive isFree
    cases o with
    | slab ci raw => exact (sound.liveSlab alive).2.1 (sound.freeObj_slab.mp isFree)
    | large idx order => exact isFree
  · intro size ptr h o o' addr returned gives alive holds holds'
    obtain ⟨own', use', free', sound', _⟩ := sound.kmalloc returned
    simp only [gives, Option.toList_some, List.singleton_append] at sound'
    -- The new object is another element of a list without duplicates.
    have same := sound'.apart (Or.inl (by simp)) (Or.inl (by simp [alive])) holds holds'
    subst same
    exact (List.nodup_cons.mp sound'.liveNodup).1 alive
  · intro size ptr h o i returned gives fits inside
    obtain ⟨_, _, _, _, pointer⟩ := sound.kmalloc returned
    exact objOf_room gives (pointer o gives) fits inside
  · intro o isFree
    cases o with
    | slab ci raw =>
      have member := sound.freeObj_slab.mp isFree
      rw [Obj.ptr, sound.kfree_slot (sound.slots member), if_neg (by simp [sound.validate_free member])]
    | large idx order => exact isFree.elim
  · intro o alive
    obtain ⟨_, _, _, h, freed, _⟩ := sound.kfree_live alive
    exact ⟨h, freed⟩
  · intro o isFree
    cases o with
    | slab ci raw =>
      have member := sound.freeObj_slab.mp isFree
      rw [Obj.ptr, sound.pmmDebugCheckPtr_slot (sound.slots member), sound.validate_free member]
    | large idx order => exact isFree.elim

theorem HeapSession.Sound.exec {t t' : HeapSession} (op : HeapOp) (sound : t.Sound)
    (allowed : Disciplined t op) (returned : t.exec op = .ok t') : t'.Sound := by
  obtain ⟨own, use, free, sound⟩ := sound
  cases op with
  | kmalloc size =>
    obtain ⟨⟨ptr, h⟩, allocated, rest⟩ := bind_ok returned
    obtain ⟨own', use', free', sound', _⟩ := sound.kmalloc allocated
    cases rest
    exact ⟨own', use', free', sound'⟩
  | kfree ptr =>
    obtain ⟨h, freed, rest⟩ := bind_ok returned
    cases rest
    rcases allowed with rfl | ⟨o, object, rfl⟩
    · -- Freeing null changes nothing, and no object has a null pointer.
      have same : t.live.filter (fun o => decide (o.ptr ≠ 0)) = t.live := by
        refine List.filter_eq_self.mpr fun o alive => decide_eq_true ?_
        cases o <;> simp [Obj.ptr, slabUserFromRaw, slabRedzoneSz, slabHdrSize]
      rw [kfree, if_pos rfl] at freed
      cases freed
      exact ⟨own, use, free, by simpa only [same] using sound⟩
    · rcases object with alive | isFree
      · obtain ⟨own', use', free', h', freed', sound'⟩ := sound.kfree_live alive
        cases freed.symm.trans freed'
        -- A pointer belongs to one object.
        have same : t.live.filter (fun o' => decide (o'.ptr ≠ o.ptr)) =
            t.live.filter (fun o' => decide (o' ≠ o)) := by
          refine List.filter_congr fun o' alive' => decide_eq_decide.mpr (not_congr ⟨fun equal => ?_, ?_⟩)
          · exact sound.apart (Or.inl alive') (Or.inl alive) (sound.holds_ptr (Or.inl alive'))
              (equal ▸ sound.holds_ptr (Or.inl alive))
          · rintro rfl
            rfl
        exact ⟨own', use', free', by simpa only [same] using sound'⟩
      · -- An object that is already free does not get past its canary.
        have caught := (HeapSession.Sound.intact ⟨own, use, free, sound⟩).doubleFree isFree
        simp [caught] at freed
  | slabWarm size count =>
    obtain ⟨h, warmed, rest⟩ := bind_ok returned
    cases rest
    exact (sound.slabWarm warmed).2
  | store addr value =>
    cases returned
    have unguarded : ¬ Guarded use free t.live addr := by
      rcases allowed with ⟨o, alive, usable⟩ | ⟨order, idx, page, linked, covers, low, high⟩
      · exact sound.unguarded_usable alive usable
      · exact sound.unguarded_pool (sound.sound.pool_of_free linked covers).1 _ low high
    refine ⟨own, use, free, sound.frame _ fun addr' guarded => Function.update_of_ne ?_ _ _⟩
    rintro rfl
    exact unguarded guarded

theorem bootHeap_sound {reserved : Nat → Bool} {blocks : List (Nat × Nat)} (tiles : Tiles reserved blocks)
    (mem : Bytes) : (bootHeap reserved blocks mem).Sound := by
  refine ⟨bootOwn reserved, fun _ => none, fun _ => [], ?_⟩
  exact
    { sound := boot_sound tiles
      sizes := fun _ => rfl
      held := by simp
      slabPage := by simp
      chain := fun _ => rfl
      count := fun _ => rfl
      nodup := by simp
      slots := by simp
      liveNodup := List.nodup_nil
      liveSlab := by simp [bootHeap]
      liveLarge := by simp [bootHeap] }

/-- The session a returning call or write leaves. -/
def HeapSession.after (t : HeapSession) (op : HeapOp) : HeapSession :=
  match t.exec op with
  | .ok t' => t'
  | .error _ => t

/-- Whether a call or write comes back. -/
def HeapSession.returns (t : HeapSession) (op : HeapOp) : Bool :=
  match t.exec op with
  | .ok _ => true
  | .error _ => false

theorem HeapSession.exec_after (t : HeapSession) (op : HeapOp) (returned : t.returns op = true) :
    t.exec op = .ok (t.after op) := by
  unfold HeapSession.returns HeapSession.after at *
  cases outcome : t.exec op with
  | error halt => simp [outcome] at returned
  | ok t' => rfl

def oneObject : HeapSession := (bootHeap kernelReserved largestBlocks fun _ => 0).after (.kmalloc 100)

def freedObject : HeapSession := oneObject.after (.kfree 0x5FC00F84)

end Enlil.Pmm

/-! How much room the heap gives for each size, in thirty-two bit arithmetic. -/

namespace Enlil.Pmm

/-- A request and its header are rounded up to whole pages without wrapping. -/
def Rounds (size : UInt32) : Prop := size.toNat + slabHdrSize + pageSize ≤ 2 ^ 32

instance (size : UInt32) : Decidable (Rounds size) := inferInstanceAs (Decidable (_ ≤ _))

theorem largePages_wraps {size : UInt32} (wraps : ¬ Rounds size) : (largePages size).toNat ≤ 1 := by
  have small := size.toNat_lt
  simp only [Rounds, slabHdrSize, pageSize, not_le] at wraps
  simp only [largePages, slabHdrSize, pageSize, UInt32.toNat_shiftRight, UInt32.toNat_sub, UInt32.toNat_add,
    UInt32.toNat_ofNat', UInt32.toNat_ofNat, Nat.shiftRight_eq_div_pow, Nat.reducePow, Nat.reduceMod]
  omega

theorem largeOrder_single {pages : Nat} (few : pages ≤ 1) (fuel : Nat) : largeOrder pages 0 fuel = 0 := by
  cases fuel with
  | zero => rfl
  | succ fuel =>
    rw [largeOrder, if_neg]
    rw [Nat.one_shiftLeft]
    omega

theorem slabClassFor_wraps {size : UInt32} (wraps : ¬ Rounds size) : slabClassFor size = none := by
  simp only [Rounds, slabHdrSize, pageSize, not_le] at wraps
  rw [slabClassFor, List.find?_eq_none]
  intro ci member
  have usable : slabUsableSize ci ≤ 2048 :=
    (Nat.sub_le _ _).trans (slabSize_facts (List.mem_range.mp member)).2.2.2
  simp only [decide_eq_true_eq, not_le]
  omega

theorem objOf_short {size : UInt32} {ptr : Nat} {o : Obj} (gives : objOf size ptr = some o) (pointer : o.ptr = ptr)
    (wraps : ¬ Rounds size) : ¬ o.Usable (ptr + (size.toNat - 1)) := by
  unfold objOf at gives
  split at gives
  · cases gives
  rw [slabClassFor_wraps wraps, largeOrder_single (largePages_wraps wraps)] at gives
  cases gives
  simp only [Rounds, slabHdrSize, pageSize, not_le] at wraps
  simp only [Obj.Usable, Obj.ptr, slabHdrSize, pageSize] at *
  omega

/--
The block of a returning allocation holds as many bytes as were asked for, between its header and its end, exactly if the size with its header does not wrap when it is rounded to pages.

The block is the object that the call makes live, in a heap that keeps its objects apart.
-/
theorem kmalloc_room {reserved : Nat → Bool} {blocks : List (Nat × Nat)} {mem : Bytes} (tiles : Tiles reserved blocks)
    {t : HeapSession} (run : Run HeapSession.exec Disciplined (bootHeap reserved blocks mem) t) {size : UInt32}
    (wanted : 1 ≤ size) {ptr : Nat} {h : Heap} (returned : kmalloc t.heap size = .ok (ptr, h)) :
    ∃ o : Obj, o.ptr = ptr ∧ o ∉ t.live ∧ (HeapSession.mk h (o :: t.live)).Intact ∧
      ((∀ i < size.toNat, o.Usable (ptr + i)) ↔ Rounds size) := by
  obtain ⟨own, use, free, sound⟩ : t.Sound := run.invariant (bootHeap_sound tiles mem) fun sound allowed returned =>
    sound.exec _ allowed returned
  obtain ⟨own', use', free', sound', pointer⟩ := sound.kmalloc returned
  have positive : 1 ≤ size.toNat := wanted
  -- A size that is not zero gives an object.
  obtain ⟨o, gives⟩ : ∃ o, objOf size ptr = some o := by
    have some : size ≠ 0 := by
      rintro rfl
      exact absurd positive (by decide)
    unfold objOf
    rw [if_neg some]
    split <;> exact ⟨_, rfl⟩
  rw [gives] at sound'
  refine ⟨o, pointer o gives, (List.nodup_cons.mp sound'.liveNodup).1,
    HeapSession.Sound.intact ⟨own', use', free', sound'⟩, ?_, ?_⟩
  · intro all
    by_contra wraps
    exact objOf_short gives (pointer o gives) wraps (all _ (by omega))
  · intro rounds i inside
    exact objOf_room gives (pointer o gives) rounds inside

def freshHeap : HeapSession := bootHeap kernelReserved largestBlocks fun _ => 0

theorem kmalloc_room_hundred : ∃ (ptr : Nat) (h : Heap) (o : Obj), kmalloc freshHeap.heap 100 = .ok (ptr, h) ∧ o.ptr = ptr ∧
    ∀ i < 100, o.Usable (ptr + i) := by
  have returned := HeapSession.exec_after freshHeap (.kmalloc 100) (by decide)
  obtain ⟨⟨ptr, h⟩, allocated, _⟩ := bind_ok returned
  obtain ⟨o, pointer, _, _, room⟩ := kmalloc_room largestBlocks_tiles .start (by decide) allocated
  exact ⟨ptr, h, o, allocated, pointer, room.mpr (by decide)⟩

/-- Four gigabytes but one byte are asked for, and a page is given. -/
theorem kmalloc_short : ∃ ptr h, kmalloc freshHeap.heap 0xFFFFFFFF = .ok (ptr, h) ∧ ptr ≠ 0 ∧
    objOf 0xFFFFFFFF ptr = some (.large (paToIdx (ptr - slabHdrSize)) 0) ∧
    ¬ (Obj.large (paToIdx (ptr - slabHdrSize)) 0).Usable (ptr + 4096) := by
  have returned := HeapSession.exec_after freshHeap (.kmalloc 0xFFFFFFFF) (by decide)
  obtain ⟨⟨ptr, h⟩, allocated, _⟩ := bind_ok returned
  obtain ⟨own, use, free, sound⟩ := bootHeap_sound largestBlocks_tiles fun _ => 0
  obtain ⟨own', use', free', sound', pointer⟩ := sound.kmalloc allocated
  have gives : objOf 0xFFFFFFFF ptr = some (.large (paToIdx (ptr - slabHdrSize)) 0) := by
    unfold objOf
    rw [slabClassFor_wraps (by decide), largeOrder_single (largePages_wraps (by decide))]
    rfl
  have start := pointer _ gives
  refine ⟨ptr, h, allocated, ?_, gives, ?_⟩
  · rw [← start]
    simp [Obj.ptr, slabHdrSize]
  · simp only [Obj.Usable, Obj.ptr, slabHdrSize, pageSize] at *
    omega

end Enlil.Pmm
