import Enlil.Pmm.BuddyRuns
import Enlil.Pmm.Slab

/-! The invariant of the slab heap, and how single steps on one object keep it. -/

namespace Enlil.Pmm

open AlignedBlock

/-- What the heap uses a page for. -/
inductive PageUse where
  | slab (ci : Nat)
  | large (idx order : Nat)
  deriving DecidableEq, Repr

/-- An object of the heap: a slot of a slab page, or a whole block of pages. -/
inductive Obj where
  | slab (ci raw : Nat)
  | large (idx order : Nat)
  deriving DecidableEq, Repr

/-- The first byte of an object, its canary or its header. -/
def Obj.start : Obj → Nat
  | .slab _ raw => raw
  | .large idx _ => idxToPa idx

/-- The bytes an object takes up. -/
def Obj.size : Obj → Nat
  | .slab ci _ => slabSize ci
  | .large _ order => 2 ^ order * pageSize

/-- The pointer its client has to an object. -/
def Obj.ptr : Obj → Nat
  | .slab _ raw => slabUserFromRaw raw
  | .large idx _ => idxToPa idx + slabHdrSize

/-- An address lies inside an object. -/
def Obj.Holds (o : Obj) (addr : Nat) : Prop := o.start ≤ addr ∧ addr < o.start + o.size

/-- An address is one of the bytes that the client of an object may write. -/
def Obj.Usable : Obj → Nat → Prop
  | .slab ci raw, addr => raw + slabRedzoneSz ≤ addr ∧ addr < raw + slabSize ci - slabRedzoneSz
  | .large idx order, addr => idxToPa idx + slabHdrSize ≤ addr ∧ addr < idxToPa idx + 2 ^ order * pageSize

/-- A slab object is one of the equal slots of a slab page, the first of which holds the header. -/
def Slot (use : Nat → Option PageUse) (ci raw : Nat) : Prop :=
  ∃ page k, use page = some (.slab ci) ∧ raw = idxToPa page + k * slabSize ci ∧ 1 ≤ k ∧
    (k + 1) * slabSize ci ≤ pageSize

/-- The header of a page or block in use. -/
structure Header (mem : Bytes) (page cls : Nat) : Prop where
  cls : hdrClass mem (idxToPa page) = cls
  magic : hdrMagic mem (idxToPa page) = slabMagicLive

/-- Both canaries of a slot are in place. -/
structure Canaries (mem : Bytes) (ci raw : Nat) : Prop where
  head : readLe mem raw 4 = slabCanaryWord
  tail : readLe mem (raw + slabSize ci - slabRedzoneSz) 4 = slabCanaryWord

/-- The bytes the allocator itself relies on. -/
inductive Guarded (use : Nat → Option PageUse) (free : Nat → List Nat) (live : List Obj) : Nat → Prop where
  | slabHdr {page ci addr : Nat} : use page = some (.slab ci) → idxToPa page ≤ addr →
      addr < idxToPa page + 4 → Guarded use free live addr
  | largeHdr {idx order addr : Nat} : .large idx order ∈ live → idxToPa idx ≤ addr →
      addr < idxToPa idx + 4 → Guarded use free live addr
  | link {ci raw addr : Nat} : raw ∈ free ci → raw ≤ addr → addr < raw + 8 → Guarded use free live addr
  | head {ci raw addr : Nat} : .slab ci raw ∈ live → raw ≤ addr → addr < raw + 4 →
      Guarded use free live addr
  | tail {ci raw addr : Nat} : .slab ci raw ∈ live → raw + slabSize ci - slabRedzoneSz ≤ addr →
      addr < raw + slabSize ci → Guarded use free live addr

/-- The heap's data agrees with what each page, slot and block is used for. -/
structure HeapSound (own : Nat → Holder) (use : Nat → Option PageUse) (free : Nat → List Nat)
    (live : List Obj) (h : Heap) : Prop where
  sound : Sound own (fun _ => False) h.buddy
  sizes : ∀ ci, (h.slabCaches ci).objSize = slabSize ci
  held : ∀ {p u}, use p = some u → own p = .client 1
  slabPage : ∀ {p ci}, use p = some (.slab ci) → ci < slabNumClasses ∧ Header h.mem p ci
  chain : ∀ ci, Chain (nextOf h.mem) 0 (h.slabCaches ci).freeHead (free ci)
  count : ∀ ci, (h.slabCaches ci).freeCount = UInt32.ofNat (free ci).length
  nodup : ∀ ci, (free ci).Nodup
  slots : ∀ {ci raw}, raw ∈ free ci → Slot use ci raw
  liveNodup : live.Nodup
  liveSlab : ∀ {ci raw}, .slab ci raw ∈ live → Slot use ci raw ∧ raw ∉ free ci ∧ Canaries h.mem ci raw
  liveLarge : ∀ {idx order}, .large idx order ∈ live → order < maxOrder ∧
    (∀ p, Covers idx order p → use p = some (.large idx order)) ∧ Header h.mem idx slabClassLarge ∧
    hdrAux h.mem (idxToPa idx) = order

theorem slabSize_facts {ci : Nat} (bound : ci < slabNumClasses) :
    32 ∣ slabSize ci ∧ 32 ≤ slabSize ci ∧ slabSize ci ∣ pageSize ∧ slabSize ci ≤ 2048 := by
  have classes : ∀ ci < 7, 32 ∣ slabSize ci ∧ 32 ≤ slabSize ci ∧ slabSize ci ∣ pageSize ∧
      slabSize ci ≤ 2048 := by decide
  exact classes ci bound

section

variable {own : Nat → Holder} {use : Nat → Option PageUse} {free : Nat → List Nat}
  {live : List Obj} {h : Heap}

theorem page_unique {page page' : Nat} (addr : Nat) (low : idxToPa page ≤ addr)
    (high : addr < idxToPa page + pageSize) (low' : idxToPa page' ≤ addr)
    (high' : addr < idxToPa page' + pageSize) : page = page' := by
  simp only [idxToPa, pageSize] at *
  omega

theorem Slot.bytes (sound : HeapSound own use free live h) {ci raw : Nat} (slot : Slot use ci raw) :
    ∃ page, use page = some (.slab ci) ∧ idxToPa page + 32 ≤ raw ∧
      raw + slabSize ci ≤ idxToPa page + pageSize ∧ 32 ∣ raw - idxToPa page := by
  obtain ⟨page, k, used, rfl, first, last⟩ := slot
  obtain ⟨divides, least, _, _⟩ := slabSize_facts (sound.slabPage used).1
  refine ⟨page, used, ?_, ?_, ?_⟩
  · have := Nat.le_mul_of_pos_left (slabSize ci) first
    omega
  · rw [Nat.add_mul] at last
    omega
  · rw [Nat.add_sub_cancel_left]
    exact Dvd.dvd.mul_left divides k

theorem HeapSound.slot_size (sound : HeapSound own use free live h) {ci raw : Nat}
    (slot : Slot use ci raw) : 32 ≤ slabSize ci := by
  obtain ⟨page, k, used, _⟩ := slot
  exact (slabSize_facts (sound.slabPage used).1).2.1

theorem Slot.unique {ci raw ci' raw' addr : Nat}
    (slot : Slot use ci raw) (slot' : Slot use ci' raw') (low : raw ≤ addr)
    (high : addr < raw + slabSize ci) (low' : raw' ≤ addr) (high' : addr < raw' + slabSize ci') :
    ci = ci' ∧ raw = raw' := by
  obtain ⟨page, k, used, rfl, first, last⟩ := slot
  obtain ⟨page', k', used', rfl, first', last'⟩ := slot'
  rw [Nat.add_mul] at last last'
  obtain rfl : page = page' := page_unique addr (by omega) (by omega) (by omega) (by omega)
  -- One page has one class, and the slots of one size are numbered.
  obtain rfl : ci = ci' := by
    rw [used] at used'
    simpa using used'
  have number : ∀ {j : Nat}, idxToPa page + j * slabSize ci ≤ addr →
      addr < idxToPa page + j * slabSize ci + slabSize ci → (addr - idxToPa page) / slabSize ci = j := by
    intro j low high
    refine Nat.div_eq_of_lt_le (by omega) ?_
    rw [Nat.add_mul]
    omega
  rw [← number low high, ← number low' high']
  exact ⟨rfl, rfl⟩

theorem HeapSound.link_ne_canary (sound : HeapSound own use free live h) {ci raw : Nat}
    (member : raw ∈ free ci) : readLe h.mem raw 4 ≠ slabCanaryWord := by
  -- A link is null or the address of a slot, so it is a multiple of thirty-two.
  have multiple : 32 ∣ nextOf h.mem raw := by
    rcases (sound.chain ci).link member with null | next
    · rw [null]
      exact Nat.dvd_zero 32
    · obtain ⟨page, _, above, _, divides⟩ := (sound.slots next).bytes sound
      simp only [idxToPa, pmmBase, pageSize] at above divides
      omega
  intro canary
  have low : readLe h.mem raw 4 = nextOf h.mem raw % 256 ^ 4 := readLe_mod (by omega)
  rw [canary, slabCanaryWord] at low
  omega

theorem HeapSound.head_lt (sound : HeapSound own use free live h) (ci : Nat) :
    (h.slabCaches ci).freeHead < 256 ^ 8 := by
  by_cases null : (h.slabCaches ci).freeHead = 0
  · simp [null]
  · -- The head is a slot, and slots lie in managed memory.
    obtain ⟨rest, nodes, _⟩ := (sound.chain ci).nonempty null
    have member : (h.slabCaches ci).freeHead ∈ free ci := by simp [nodes]
    obtain ⟨page, used, above, below, _⟩ := (sound.slots member).bytes sound
    have managed := sound.sound.managed (p := page) (by simp [sound.held used])
    simp only [idxToPa, numPages, pmmBase, pmmEnd, pageSize] at above below managed
    omega

theorem HeapSound.large_page (sound : HeapSound own use free live h) {idx order addr : Nat}
    (member : .large idx order ∈ live) (low : idxToPa idx ≤ addr)
    (high : addr < idxToPa idx + 2 ^ order * pageSize) :
    ∃ page, use page = some (.large idx order) ∧ idxToPa page ≤ addr ∧ addr < idxToPa page + pageSize := by
  have inside : ∀ {size : Nat}, addr < idxToPa idx + size * pageSize →
      idx ≤ paToIdx addr ∧ paToIdx addr < idx + size ∧ idxToPa (paToIdx addr) ≤ addr ∧
        addr < idxToPa (paToIdx addr) + pageSize := by
    intro size high
    simp only [idxToPa, paToIdx, pageSize, pmmBase] at low high ⊢
    omega
  obtain ⟨first, last, below, above⟩ := inside high
  exact ⟨paToIdx addr, (sound.liveLarge member).2.1 _ ⟨first, last⟩, below, above⟩

theorem HeapSound.guarded_page (sound : HeapSound own use free live h) {addr : Nat}
    (guarded : Guarded use free live addr) :
    ∃ page u, use page = some u ∧ idxToPa page ≤ addr ∧ addr < idxToPa page + pageSize ∧
      ∀ idx order, u = .large idx order → addr < idxToPa idx + 4 := by
  have inSlot : ∀ {ci raw}, Slot use ci raw → raw ≤ addr → addr < raw + slabSize ci →
      ∃ page u, use page = some u ∧ idxToPa page ≤ addr ∧ addr < idxToPa page + pageSize ∧
        ∀ idx order, u = .large idx order → addr < idxToPa idx + 4 := by
    intro ci raw slot low high
    obtain ⟨page, used, above, below, _⟩ := slot.bytes sound
    exact ⟨page, _, used, by omega, by omega, fun idx order large => by cases large⟩
  cases guarded with
  | slabHdr used low high =>
    exact ⟨_, _, used, low, by simp only [pageSize]; omega, fun idx order large => by cases large⟩
  | @largeHdr idx order _ member low high =>
    have size := Nat.two_pow_pos order
    obtain ⟨page, used, below, above⟩ := sound.large_page member low (by simp only [pageSize]; omega)
    refine ⟨page, _, used, below, above, ?_⟩
    intro idx' order' large
    cases large
    exact high
  | link member low high =>
    have slot := sound.slots member
    exact inSlot slot low (by have := sound.slot_size slot; omega)
  | head member low high =>
    have slot := (sound.liveSlab member).1
    exact inSlot slot low (by have := sound.slot_size slot; omega)
  | tail member low high =>
    have slot := (sound.liveSlab member).1
    have size := sound.slot_size slot
    exact inSlot slot (by simp only [slabRedzoneSz] at low; omega) high

theorem HeapSound.frame (sound : HeapSound own use free live h) (mem' : Bytes)
    (kept : ∀ addr, Guarded use free live addr → mem' addr = h.mem addr) :
    HeapSound own use free live { h with mem := mem' } := by
  have header : ∀ {page cls}, (∀ addr, idxToPa page ≤ addr → addr < idxToPa page + 4 →
      Guarded use free live addr) → Header h.mem page cls → Header mem' page cls := by
    intro page cls guarded header
    refine ⟨header.cls ▸ readLe_congr fun p low high => ?_, header.magic ▸ readLe_congr fun p low high => ?_⟩
    · exact kept p (guarded p low (by omega))
    · exact kept p (guarded p (by omega) (by omega))
  refine { sound with slabPage := ?_, chain := ?_, liveSlab := ?_, liveLarge := ?_ }
  · intro p ci used
    obtain ⟨bound, old⟩ := sound.slabPage used
    exact ⟨bound, header (fun addr low high => .slabHdr used low high) old⟩
  · intro ci
    refine (sound.chain ci).congr fun raw member => readLe_congr fun p low high => ?_
    exact kept p (.link member low high)
  · intro ci raw member
    obtain ⟨slot, notFree, canaries⟩ := sound.liveSlab member
    have size := sound.slot_size slot
    refine ⟨slot, notFree, canaries.head ▸ readLe_congr fun p low high => ?_,
      canaries.tail ▸ readLe_congr fun p low high => ?_⟩
    · exact kept p (.head member low high)
    · exact kept p (.tail member low (by simp only [slabRedzoneSz] at high; omega))
  · intro idx order member
    obtain ⟨bound, pages, old, aux⟩ := sound.liveLarge member
    refine ⟨bound, pages, header (fun addr low high => .largeHdr member low high) old, ?_⟩
    refine aux ▸ readLe_congr fun p low high => kept p (.largeHdr member (by omega) (by omega))

theorem HeapSound.forget (sound : HeapSound own use free live h) (o : Obj) :
    HeapSound own use free (live.filter (· ≠ o)) h := by
  have still : ∀ {o'}, o' ∈ live.filter (· ≠ o) → o' ∈ live := fun member => List.mem_of_mem_filter member
  exact { sound with
    liveNodup := sound.liveNodup.filter _
    liveSlab := fun member => sound.liveSlab (still member)
    liveLarge := fun member => sound.liveLarge (still member) }

theorem HeapSound.unguarded_slot (sound : HeapSound own use free live h) {ci raw : Nat}
    (slot : Slot use ci raw) (notFree : raw ∉ free ci) (notLive : .slab ci raw ∉ live) (addr : Nat)
    (low : raw ≤ addr) (high : addr < raw + slabSize ci) : ¬ Guarded use free live addr := by
  obtain ⟨page, used, above, below, _⟩ := slot.bytes sound
  -- Any other slot with this byte would be the same slot.
  have other : ∀ {ci' raw' : Nat}, Slot use ci' raw' → raw' ≤ addr → addr < raw' + slabSize ci' →
      ci = ci' ∧ raw = raw' := fun slot' low' high' => slot.unique slot' low high low' high'
  intro guarded
  cases guarded with
  | @slabHdr page' ci' _ used' low' high' =>
    obtain rfl : page = page' := page_unique addr (by omega) (by omega) low'
      (by simp only [pageSize]; omega)
    omega
  | @largeHdr idx order _ member low' high' =>
    have size := Nat.two_pow_pos order
    obtain ⟨page', used', low', high'⟩ := sound.large_page member low' (by simp only [pageSize]; omega)
    obtain rfl : page = page' := page_unique addr (by omega) (by omega) low' high'
    simp [used] at used'
  | link member low' high' =>
    have slot' := sound.slots member
    have size := sound.slot_size slot'
    obtain ⟨rfl, rfl⟩ := other slot' low' (by omega)
    exact notFree member
  | head member low' high' =>
    have slot' := (sound.liveSlab member).1
    have size := sound.slot_size slot'
    obtain ⟨rfl, rfl⟩ := other slot' low' (by omega)
    exact notLive member
  | tail member low' high' =>
    have slot' := (sound.liveSlab member).1
    have size := sound.slot_size slot'
    obtain ⟨rfl, rfl⟩ := other slot' (by simp only [slabRedzoneSz] at low'; omega) high'
    exact notLive member

theorem HeapSound.unguarded_usable (sound : HeapSound own use free live h) {o : Obj} {addr : Nat}
    (member : o ∈ live) (usable : o.Usable addr) : ¬ Guarded use free live addr := by
  intro guarded
  cases o with
  | slab ci raw =>
    have keep : ∀ {o'}, o' ∈ live → o' ≠ .slab ci raw → o' ∈ live.filter (· ≠ .slab ci raw) :=
      fun member different => List.mem_filter.mpr ⟨member, decide_eq_true different⟩
    -- Seen without this object, its bytes belong to a slot that is neither free nor live.
    obtain ⟨slot, notFree, _⟩ := sound.liveSlab member
    obtain ⟨low, high⟩ := usable
    simp only [slabRedzoneSz] at low high
    have rest := sound.forget (.slab ci raw)
    have apart := rest.unguarded_slot slot notFree (by simp) addr (by omega) (by omega)
    cases guarded with
    | slabHdr used low' high' => exact apart (.slabHdr used low' high')
    | largeHdr other low' high' => exact apart (.largeHdr (keep other (by simp)) low' high')
    | link other low' high' => exact apart (.link other low' high')
    | @head ci' raw' _ other low' high' =>
      by_cases same : Obj.slab ci' raw' = .slab ci raw
      · cases same
        omega
      · exact apart (.head (keep other same) low' high')
    | @tail ci' raw' _ other low' high' =>
      by_cases same : Obj.slab ci' raw' = .slab ci raw
      · cases same
        simp only [slabRedzoneSz] at low'
        omega
      · exact apart (.tail (keep other same) low' high')
  | large idx order =>
    obtain ⟨low, high⟩ := usable
    simp only [slabHdrSize] at low
    obtain ⟨page, used, below, above⟩ := sound.large_page member (by omega) high
    obtain ⟨page', u, used', below', above', first⟩ := sound.guarded_page guarded
    obtain rfl : page = page' := page_unique _ below above below' above'
    obtain rfl : PageUse.large idx order = u := by simpa [used] using used'
    have := first idx order rfl
    omega

theorem HeapSound.pop (sound : HeapSound own use free live h) {ci raw : Nat} {rest : List Nat}
    (nodes : free ci = raw :: rest) :
    Slot use ci raw ∧ raw ∉ rest ∧ .slab ci raw ∉ live ∧
      HeapSound own use (Function.update free ci rest) live
        { h with
          slabCaches := Function.update h.slabCaches ci
            { h.slabCaches ci with
              freeHead := nextOf h.mem raw, freeCount := (h.slabCaches ci).freeCount - 1 } } := by
  have member : raw ∈ free ci := by simp [nodes]
  have nodup := nodes ▸ sound.nodup ci
  have chain := nodes ▸ sound.chain ci
  have still : ∀ {ci' raw'}, raw' ∈ Function.update free ci rest ci' → raw' ∈ free ci' := by
    intro ci' raw' inRest
    by_cases same : ci' = ci
    · subst same
      simp only [Function.update_self] at inRest
      simp [nodes, inRest]
    · simpa [same] using inRest
  refine ⟨sound.slots member, (List.nodup_cons.mp nodup).1,
    fun alive => (sound.liveSlab alive).2.1 member, ?_⟩
  refine { sound with sizes := ?_, chain := ?_, count := ?_, nodup := ?_, slots := ?_, liveSlab := ?_ }
  · intro ci'
    by_cases same : ci' = ci
    · subst same
      simpa using sound.sizes ci'
    · simpa [same] using sound.sizes ci'
  · intro ci'
    by_cases same : ci' = ci
    · subst same
      simpa using chain.2.2
    · simpa [same] using sound.chain ci'
  · intro ci'
    by_cases same : ci' = ci
    · subst same
      simp [sound.count, nodes, UInt32.ofNat_add]
    · simpa [same] using sound.count ci'
  · intro ci'
    by_cases same : ci' = ci
    · subst same
      simpa using (List.nodup_cons.mp nodup).2
    · simpa [same] using sound.nodup ci'
  · exact fun inRest => sound.slots (still inRest)
  · intro ci' raw' alive
    obtain ⟨slot, notFree, canaries⟩ := sound.liveSlab alive
    exact ⟨slot, fun inRest => notFree (still inRest), canaries⟩

theorem HeapSound.push (sound : HeapSound own use free live h) {ci raw : Nat} (slot : Slot use ci raw)
    (notFree : raw ∉ free ci) (notLive : .slab ci raw ∉ live) :
    HeapSound own use (Function.update free ci (raw :: free ci)) live (pushFree h ci raw) := by
  have size := sound.slot_size slot
  obtain ⟨page, used, above, below, _⟩ := slot.bytes sound
  have head := sound.chain ci
  -- The link is written into bytes nobody relies on, and only then does the slot join the list.
  have framed := sound.frame (writeLe h.mem raw 8 (h.slabCaches ci).freeHead)
    fun addr guarded => writeLe_outside (by
      by_contra inside
      exact sound.unguarded_slot slot notFree notLive addr (by omega) (by omega) guarded)
  have link : nextOf (writeLe h.mem raw 8 (h.slabCaches ci).freeHead) raw = (h.slabCaches ci).freeHead := by
    rw [nextOf, readLe_writeLe (Nat.le_refl 8), Nat.mod_eq_of_lt]
    exact sound.head_lt ci
  have member : ∀ {ci' raw'}, raw' ∈ Function.update free ci (raw :: free ci) ci' →
      raw' ∈ free ci' ∨ (ci' = ci ∧ raw' = raw) := by
    intro ci' raw' inList
    by_cases same : ci' = ci
    · subst same
      simpa [or_comm] using inList
    · exact Or.inl (by simpa [same] using inList)
  refine { framed with sizes := ?_, chain := ?_, count := ?_, nodup := ?_, slots := ?_, liveSlab := ?_ }
  · intro ci'
    by_cases same : ci' = ci
    · subst same
      simpa [pushFree] using sound.sizes ci'
    · simpa [pushFree, same] using sound.sizes ci'
  · intro ci'
    by_cases same : ci' = ci
    · subst same
      simp only [pushFree, Function.update_self]
      refine ⟨rfl, by simp only [idxToPa, pmmBase] at above; omega, ?_⟩
      rw [link]
      exact framed.chain ci'
    · simpa [pushFree, same] using framed.chain ci'
  · intro ci'
    by_cases same : ci' = ci
    · subst same
      simp [pushFree, sound.count, UInt32.ofNat_add]
    · simpa [pushFree, same] using sound.count ci'
  · intro ci'
    by_cases same : ci' = ci
    · subst same
      simpa using ⟨notFree, sound.nodup ci'⟩
    · simpa [same] using sound.nodup ci'
  · intro ci' raw' inList
    rcases member inList with old | ⟨rfl, rfl⟩
    · exact sound.slots old
    · exact slot
  · intro ci' raw' alive
    obtain ⟨slot', notFree', canaries⟩ := framed.liveSlab alive
    refine ⟨slot', fun inList => ?_, canaries⟩
    rcases member inList with old | ⟨rfl, rfl⟩
    · exact notFree' old
    · exact notLive alive

theorem HeapSound.adopt (sound : HeapSound own use free live h) {ci raw : Nat} (slot : Slot use ci raw)
    (notFree : raw ∉ free ci) (notLive : .slab ci raw ∉ live) (canaries : Canaries h.mem ci raw) :
    HeapSound own use free (.slab ci raw :: live) h := by
  refine { sound with liveNodup := List.nodup_cons.mpr ⟨notLive, sound.liveNodup⟩
                      liveSlab := ?_, liveLarge := ?_ }
  · intro ci' raw' alive
    rcases List.mem_cons.mp alive with same | old
    · cases same
      exact ⟨slot, notFree, canaries⟩
    · exact sound.liveSlab old
  · intro idx order alive
    rcases List.mem_cons.mp alive with same | old
    · cases same
    · exact sound.liveLarge old

end

end Enlil.Pmm
