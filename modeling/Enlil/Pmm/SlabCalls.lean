import Enlil.Pmm.SlabInvariant

/-! What each call of the slab heap does to its invariant. -/

namespace Enlil.Pmm

open AlignedBlock

theorem Sound.tagSlab {own : Nat → Holder} {s : Buddy} (sound : Sound own (fun _ => False) s)
    (page n : Nat) (client : own page = .client n) :
    Sound own (fun _ => False) { s with pageState := Function.update s.pageState page .slab } := by
  -- Neither a free block nor a reserved page has the held page's index.
  have apart : ∀ {p}, own p = .pool ∨ own p = .reserved → p ≠ page := by
    rintro p (pool | reserved) rfl
    · simp [pool] at client
    · simp [reserved] at client
  refine { sound with freeTag := ?_, reservedTag := ?_, clientTag := ?_, count := sound.count
                      total := sound.total }
  · intro order idx free
    have pool := (sound.pool_of_free free (covers_base idx order)).1
    simpa [apart (Or.inl pool)] using sound.freeTag free
  · intro p bound reserved
    simpa [apart (Or.inr reserved)] using sound.reservedTag bound reserved
  · intro p m held
    obtain ⟨positive, tag, refs⟩ := sound.clientTag held
    refine ⟨positive, ?_, refs⟩
    by_cases same : p = page
    · simp [same]
    · simpa [same] using tag

theorem hdrClass_writeHdr {mem : Bytes} {pa cls aux magic : Nat} (small : cls < 256) :
    hdrClass (writeHdr mem pa cls aux magic) pa = cls := by
  rw [hdrClass, writeHdr, readLe_writeLe_apart (by omega), readLe_writeLe_apart (by omega),
    readLe_writeLe (Nat.le_refl 1), Nat.mod_eq_of_lt (by omega)]

theorem hdrAux_writeHdr {mem : Bytes} {pa cls aux magic : Nat} (small : aux < 256) :
    hdrAux (writeHdr mem pa cls aux magic) pa = aux := by
  rw [hdrAux, writeHdr, readLe_writeLe_apart (by omega), readLe_writeLe (Nat.le_refl 1),
    Nat.mod_eq_of_lt (by omega)]

theorem hdrMagic_writeHdr {mem : Bytes} {pa cls aux magic : Nat} (small : magic < 65536) :
    hdrMagic (writeHdr mem pa cls aux magic) pa = magic := by
  rw [hdrMagic, writeHdr, readLe_writeLe (Nat.le_refl 2), Nat.mod_eq_of_lt (by omega)]

theorem writeHdr_outside {mem : Bytes} {pa cls aux magic addr : Nat} (outside : addr < pa ∨ pa + 4 ≤ addr) :
    writeHdr mem pa cls aux magic addr = mem addr := by
  rw [writeHdr, writeLe_outside (by omega), writeLe_outside (by omega), writeLe_outside (by omega)]

section

variable {own : Nat → Holder} {use : Nat → Option PageUse} {free : Nat → List Nat}
  {live : List Obj} {h : Heap}

theorem HeapSound.unguarded_pool (sound : HeapSound own use free live h) {page : Nat}
    (pool : own page = .pool) (addr : Nat) (low : idxToPa page ≤ addr) (high : addr < idxToPa page + pageSize) :
    ¬ Guarded use free live addr := by
  intro guarded
  obtain ⟨page', u, used, low', high', _⟩ := sound.guarded_page guarded
  obtain rfl := page_unique addr low high low' high'
  simp [sound.held used] at pool

theorem HeapSound.reuse (sound : HeapSound own use free live h) {own' : Nat → Holder}
    (use' : Nat → Option PageUse) {b : Buddy} (buddy : Sound own' (fun _ => False) b)
    (kept : ∀ {p u}, use p = some u → (∀ {idx order}, u = .large idx order → .large idx order ∈ live) →
      use' p = some u)
    (held : ∀ {p u}, use' p = some u → own' p = .client 1)
    (slabPage : ∀ {p ci}, use' p = some (.slab ci) → ci < slabNumClasses ∧ Header h.mem p ci) :
    HeapSound own' use' free live { h with buddy := b } := by
  have slot : ∀ {ci raw}, Slot use ci raw → Slot use' ci raw := by
    rintro ci raw ⟨page, k, used, rest⟩
    exact ⟨page, k, kept used (by simp), rest⟩
  refine { sound with sound := buddy, held := held, slabPage := slabPage, slots := ?_, liveSlab := ?_
                      liveLarge := ?_ }
  · exact fun member => slot (sound.slots member)
  · intro ci raw member
    obtain ⟨old, rest⟩ := sound.liveSlab member
    exact ⟨slot old, rest⟩
  · intro idx order member
    obtain ⟨bound, pages, rest⟩ := sound.liveLarge member
    refine ⟨bound, fun p covers => kept (pages p covers) ?_, rest⟩
    intro idx' order' same
    cases same
    exact member

theorem HeapSound.unused (sound : HeapSound own use free live h) {order idx : Nat} {b : Buddy}
    (granted : Granted own order idx b) {p : Nat} (covers : Covers idx order p) : use p = none := by
  cases used : use p with
  | none => rfl
  | some u =>
    have pool := granted.unheld p covers
    simp [sound.held used] at pool

theorem HeapSound.addSlabPage (sound : HeapSound own use free live h) {ci idx : Nat} {b : Buddy}
    (bound : ci < slabNumClasses) (granted : Granted own 0 idx b) :
    HeapSound (fun p => if Covers idx 0 p then .client 1 else own p)
      (Function.update use idx (some (.slab ci))) free live
      { h with
        buddy := { b with pageState := Function.update b.pageState idx .slab }
        mem := writeHdr h.mem (idxToPa idx) ci 0 slabMagicLive } := by
  have unused := sound.unused granted (covers_base idx 0)
  have classes : ci < 256 := Nat.lt_trans bound (by decide)
  have framed := sound.frame (writeHdr h.mem (idxToPa idx) ci 0 slabMagicLive)
    fun addr guarded => writeHdr_outside (by
      by_contra inside
      exact sound.unguarded_pool (granted.unheld idx (covers_base idx 0)) addr
        (by omega) (by simp only [pageSize]; omega) guarded)
  refine framed.reuse _ (granted.sound.tagSlab idx 1 (by simp [covers_base])) ?_ ?_ ?_
  · intro p u used _
    rw [Function.update_of_ne, used]
    rintro rfl
    simp [unused] at used
  · intro p u used
    by_cases same : p = idx
    · simp [same, covers_base]
    · have old : use p = some u := by simpa [same] using used
      have outside : ¬ Covers idx 0 p := fun covers => same (covers_zero.mp covers)
      simpa [outside] using sound.held old
  · intro p ci' used
    by_cases same : p = idx
    · subst same
      obtain rfl : ci = ci' := by simpa using used
      exact ⟨bound, hdrClass_writeHdr classes, hdrMagic_writeHdr (by decide)⟩
    · exact framed.slabPage (by simpa [same] using used)

theorem HeapSound.countObject (sound : HeapSound own use free live h) (ci : Nat) :
    HeapSound own use free live (countObject h ci) := by
  have same : ∀ ci', ((Pmm.countObject h ci).slabCaches ci').freeHead = (h.slabCaches ci').freeHead ∧
      ((Pmm.countObject h ci).slabCaches ci').objSize = (h.slabCaches ci').objSize ∧
      ((Pmm.countObject h ci).slabCaches ci').freeCount = (h.slabCaches ci').freeCount := by
    intro ci'
    by_cases here : ci' = ci
    · subst here
      simp [Pmm.countObject]
    · simp [Pmm.countObject, here]
  exact { sound with
    sizes := fun ci' => (same ci').2.1.trans (sound.sizes ci')
    chain := fun ci' => (same ci').1 ▸ sound.chain ci'
    count := fun ci' => (same ci').2.2.trans (sound.count ci') }

theorem HeapSound.carve (ci page : Nat) (used : use page = some (.slab ci)) (fuel : Nat) :
    ∀ {h : Heap} {free : Nat → List Nat} {k : Nat}, HeapSound own use free live h → 1 ≤ k →
      (∀ j, k ≤ j → (j + 1) * slabSize ci ≤ pageSize → idxToPa page + j * slabSize ci ∉ free ci ∧
        .slab ci (idxToPa page + j * slabSize ci) ∉ live) →
      ∃ free', HeapSound own use free' live (carve h ci (idxToPa page) (k * slabSize ci) fuel) ∧
        (free ci).length ≤ (free' ci).length ∧
        (0 < fuel → (k + 1) * slabSize ci ≤ pageSize → (free ci).length < (free' ci).length) := by
  -- The loop pushes one slot a round, and the slots after it stay untouched.
  induction fuel with
  | zero =>
    intro h free k sound _ _
    exact ⟨free, sound, Nat.le_refl _, by simp⟩
  | succ fuel ih =>
    intro h free k sound first untouched
    simp only [Pmm.carve, sound.sizes ci]
    split
    · rename_i fits
      have slot : Slot use ci (idxToPa page + k * slabSize ci) :=
        ⟨page, k, used, rfl, first, by rw [Nat.add_mul]; omega⟩
      have size := sound.slot_size slot
      obtain ⟨notFree, notLive⟩ := untouched k (Nat.le_refl k) (by rw [Nat.add_mul]; omega)
      have pushed := (sound.push slot notFree notLive).countObject ci
      obtain ⟨free', sound', grown, _⟩ := ih (k := k + 1) pushed (by omega) (by
        intro j after inside
        obtain ⟨notFree', notLive'⟩ := untouched j (by omega) inside
        refine ⟨?_, notLive'⟩
        -- A later slot starts later.
        have later : k * slabSize ci < j * slabSize ci := Nat.mul_lt_mul_of_pos_right (by omega) (by omega)
        simp only [Function.update_self, List.mem_cons, not_or]
        exact ⟨by omega, notFree'⟩)
      simp only [Function.update_self, List.length_cons] at grown
      refine ⟨free', ?_, by omega, fun _ _ => by omega⟩
      rw [Nat.add_mul, Nat.one_mul] at sound'
      exact sound'
    · rename_i full
      refine ⟨free, sound, Nat.le_refl _, fun _ fits => ?_⟩
      rw [Nat.add_mul] at fits
      omega

theorem HeapSound.slabRefill (sound : HeapSound own use free live h) {ci : Nat} {h' : Heap}
    (bound : ci < slabNumClasses) (returned : slabRefill h ci = .ok h') :
    ∃ own' use' free', HeapSound own' use' free' live h' ∧ (free ci).length < (free' ci).length := by
  obtain ⟨⟨pa, b⟩, allocated, rest⟩ := bind_ok returned
  obtain ⟨idx, rfl, granted⟩ := sound.sound.physAllocPage allocated
  have real : idxToPa idx ≠ 0 := by
    simp only [idxToPa, pmmBase]
    omega
  have unused := sound.unused granted (covers_base idx 0)
  obtain ⟨_, least, _, most⟩ := slabSize_facts bound
  -- The header takes the place of the first slot.
  have offset : (slabHdrSize + slabSize ci - 1) / slabSize ci = 1 := by
    refine Nat.div_eq_of_lt_le ?_ ?_ <;> simp only [slabHdrSize] <;> omega
  have empty := sound.addSlabPage bound granted
  obtain ⟨free', sound', _, grown⟩ := HeapSound.carve ci idx (by simp) pageSize
    (k := 1) empty (Nat.le_refl 1) (by
      -- No object lies on a page that was not in use.
      intro j _ inside
      have none : ¬ Slot use ci (idxToPa idx + j * slabSize ci) := by
        intro slot
        obtain ⟨page, used, above, below, _⟩ := slot.bytes sound
        rw [Nat.add_mul] at inside
        obtain rfl : page = idx := page_unique (idxToPa idx + j * slabSize ci)
          (by omega) (by omega) (by omega) (by omega)
        simp [unused] at used
      exact ⟨fun member => none (sound.slots member), fun alive => none (sound.liveSlab alive).1⟩)
  simp only [real, if_false, paToIdx_idxToPa, sound.sizes ci, offset] at rest
  cases rest
  exact ⟨_, _, free', sound', grown (by decide) (by simp only [pageSize]; omega)⟩

theorem HeapSound.slabWriteCanaries (sound : HeapSound own use free live h) {ci raw : Nat}
    (slot : Slot use ci raw) (notFree : raw ∉ free ci) (notLive : .slab ci raw ∉ live) :
    HeapSound own use free (.slab ci raw :: live) (slabWriteCanaries h ci raw) := by
  have size := sound.slot_size slot
  have framed : HeapSound own use free live (Pmm.slabWriteCanaries h ci raw) := by
    refine sound.frame _ fun addr guarded => ?_
    have outside : ¬ (raw ≤ addr ∧ addr < raw + slabSize ci) := fun inside =>
      sound.unguarded_slot slot notFree notLive _ inside.1 inside.2 guarded
    rw [sound.sizes ci, writeLe_outside (by simp only [slabRedzoneSz]; omega), writeLe_outside (by omega)]
  refine framed.adopt slot notFree notLive ⟨?_, ?_⟩
  · simp only [Pmm.slabWriteCanaries, sound.sizes ci]
    rw [readLe_writeLe_apart (by simp only [slabRedzoneSz]; omega), readLe_writeLe (Nat.le_refl 4)]
    rfl
  · simp only [Pmm.slabWriteCanaries, sound.sizes ci]
    rw [readLe_writeLe (Nat.le_refl 4)]
    rfl

theorem HeapSound.kmallocSlab (sound : HeapSound own use free live h) {size : UInt32} {ci ptr : Nat}
    {h' : Heap} (bound : ci < slabNumClasses) (returned : kmallocSlab h size ci = .ok (ptr, h')) :
    ∃ own' use' free' raw, ptr = slabUserFromRaw raw ∧
      HeapSound own' use' free' (.slab ci raw :: live) h' := by
  obtain ⟨h₁, filled, rest⟩ := bind_ok returned
  -- After the refill, if there was one, the invariant holds of some pages and lists.
  obtain ⟨own₁, use₁, free₁, sound₁⟩ : ∃ own₁ use₁ free₁, HeapSound own₁ use₁ free₁ live h₁ := by
    unfold slabFilled at filled
    by_cases empty : (h.slabCaches ci).freeHead = 0
    · rw [if_pos empty] at filled
      obtain ⟨own₁, use₁, free₁, sound₁, _⟩ := sound.slabRefill bound filled
      exact ⟨own₁, use₁, free₁, sound₁⟩
    · rw [if_neg empty] at filled
      cases filled
      exact ⟨own, use, free, sound⟩
  by_cases null : (h₁.slabCaches ci).freeHead = 0
  · simp [null, throw, throwThe, MonadExceptOf.throw, Bind.bind, Except.bind] at rest
  simp only [null, if_false] at rest
  cases rest
  obtain ⟨tail, nodes, _⟩ := (sound₁.chain ci).nonempty null
  obtain ⟨slot, notRest, notLive, popped⟩ := sound₁.pop nodes
  exact ⟨own₁, use₁, _, _, rfl, popped.slabWriteCanaries slot (by simpa using notRest) notLive⟩

theorem HeapSound.kmallocLarge (sound : HeapSound own use free live h) {size : UInt32} {ptr : Nat}
    {h' : Heap} (returned : kmallocLarge h size = .ok (ptr, h')) :
    ∃ own' use' idx, ptr = idxToPa idx + slabHdrSize ∧
      HeapSound own' use' free (.large idx (largeOrder (largePages size).toNat 0 20) :: live) h' := by
  unfold Pmm.kmallocLarge at returned
  generalize largeOrder (largePages size).toNat 0 20 = order at returned ⊢
  by_cases large : order ≥ maxOrder
  · simp [large, throw, throwThe, MonadExceptOf.throw, Bind.bind, Except.bind] at returned
  simp only [large, if_false] at returned
  obtain ⟨⟨pa, b⟩, allocated, rest⟩ := bind_ok returned
  obtain ⟨bound, idx, rfl, granted⟩ := sound.sound.physAllocPages allocated
  cases rest
  have first : Covers idx order idx := covers_base idx order
  have unused : ∀ {p}, Covers idx order p → use p = none := fun covers => sound.unused granted covers
  -- The header goes into a page nobody held.
  have framed := sound.frame
    (writeLe (writeHdr h.mem (idxToPa idx) slabClassLarge order slabMagicLive) (idxToPa idx + 4) 4 0)
    fun addr guarded => by
      have outside : ¬ (idxToPa idx ≤ addr ∧ addr < idxToPa idx + pageSize) := fun inside =>
        sound.unguarded_pool (granted.unheld idx first) addr inside.1 inside.2 guarded
      simp only [pageSize] at outside
      rw [writeLe_outside (by omega), writeHdr_outside (by omega)]
  have sound' := framed.reuse (fun p => if Covers idx order p then some (.large idx order) else use p)
    granted.sound (by
      intro p u used _
      have outside : ¬ Covers idx order p := fun covers => by simp [unused covers] at used
      simpa [outside] using used) (by
      intro p u used
      by_cases covers : Covers idx order p
      · simp [covers]
      · simpa [covers] using sound.held (by simpa [covers] using used)) (by
      intro p ci used
      by_cases covers : Covers idx order p
      · simp [covers] at used
      · exact framed.slabPage (by simpa [covers] using used))
  have fresh : Obj.large idx order ∉ live := by
    intro alive
    have used := (sound.liveLarge alive).2.1 idx first
    simp [unused first] at used
  have small : order < 256 := Nat.lt_trans bound (by decide)
  refine ⟨_, _, idx, rfl, { sound' with
    liveNodup := List.nodup_cons.mpr ⟨fresh, sound.liveNodup⟩, liveSlab := ?_, liveLarge := ?_ }⟩
  · intro ci raw alive
    rcases List.mem_cons.mp alive with same | old
    · cases same
    · exact sound'.liveSlab old
  · intro idx' order' alive
    rcases List.mem_cons.mp alive with same | old
    · cases same
      refine ⟨bound, fun p covers => by simp [covers], ⟨?_, ?_⟩, ?_⟩
      · exact (readLe_writeLe_apart (by omega)).trans (hdrClass_writeHdr (by decide))
      · exact (readLe_writeLe_apart (by omega)).trans (hdrMagic_writeHdr (by decide))
      · exact (readLe_writeLe_apart (by omega)).trans (hdrAux_writeHdr small)
    · exact sound'.liveLarge old

theorem slabClassFor_lt {size : UInt32} {ci : Nat} (found : slabClassFor size = some ci) :
    ci < slabNumClasses :=
  List.mem_range.mp (List.mem_of_find?_eq_some found)

/-- The object a returning allocation gives, none for an empty request. -/
def objOf (size : UInt32) (ptr : Nat) : Option Obj :=
  if size = 0 then none
  else
    match slabClassFor size with
    | some ci => some (.slab ci (slabRawFromUserPtr ptr))
    | none => some (.large (paToIdx (ptr - slabHdrSize)) (largeOrder (largePages size).toNat 0 20))

theorem HeapSound.kmalloc (sound : HeapSound own use free live h) {size : UInt32} {ptr : Nat}
    {h' : Heap} (returned : kmalloc h size = .ok (ptr, h')) :
    ∃ own' use' free', HeapSound own' use' free' ((objOf size ptr).toList ++ live) h' ∧
      ∀ o, objOf size ptr = some o → o.ptr = ptr := by
  unfold Pmm.kmalloc objOf at *
  by_cases zero : size = 0
  · rw [if_pos zero] at returned ⊢
    cases returned
    exact ⟨own, use, free, by simpa using sound, by simp⟩
  · rw [if_neg zero] at returned ⊢
    cases found : slabClassFor size with
    | some ci =>
      simp only [found] at returned ⊢
      obtain ⟨own', use', free', raw, rfl, sound'⟩ := sound.kmallocSlab (slabClassFor_lt found) returned
      refine ⟨own', use', free', by simpa [slabRawFromUserPtr, slabUserFromRaw] using sound', ?_⟩
      simp [Obj.ptr, slabRawFromUserPtr, slabUserFromRaw]
    | none =>
      simp only [found] at returned ⊢
      obtain ⟨own', use', idx, rfl, sound'⟩ := sound.kmallocLarge returned
      exact ⟨own', use', free, by simpa using sound', by simp [Obj.ptr]⟩

end

end Enlil.Pmm
