import Enlil.Pmm.Buddy

/-! The invariant of the buddy allocator, and what each of its primitives does to it. -/

namespace Enlil.Pmm

open AlignedBlock

/-- Who holds a page. -/
inductive Holder where
  | reserved
  /-- A client page with the number of references given out and not yet freed. -/
  | client (refs : Nat)
  | pool
  deriving DecidableEq, Repr

/-- The block of an order at an index is linked in its free list. -/
def Buddy.FreeBlock (s : Buddy) (order idx : Nat) : Prop := idx ∈ s.buddySent order

/-- The number of pages on a family of free lists. -/
def listedPages (lists : Nat → List Nat) : Nat :=
  ∑ order ∈ Finset.range maxOrder, (lists order).length * 2 ^ order

/--
The allocator's data agrees with who holds which page.

The pages in hand belong to the pool but are on no list, because a call has them between two lists.
Nothing is asked of the tags of a page in hand or inside a free block: they may be left over from earlier.
-/
structure Sound (own : Nat → Holder) (inHand : Nat → Prop) (s : Buddy) : Prop where
  orders : ∀ {order idx}, s.FreeBlock order idx → order < maxOrder
  aligned : ∀ {order idx}, s.FreeBlock order idx → Aligned idx order
  nodup : ∀ order, (s.buddySent order).Nodup
  disjoint : ∀ {order idx order' idx' p}, s.FreeBlock order idx → s.FreeBlock order' idx' →
    Covers idx order p → Covers idx' order' p → order = order' ∧ idx = idx'
  listed : ∀ p, (∃ order idx, s.FreeBlock order idx ∧ Covers idx order p) ↔
    own p = .pool ∧ ¬ inHand p
  handPool : ∀ {p}, inHand p → own p = .pool
  managed : ∀ {p}, own p ≠ .reserved → p < numPages
  freeTag : ∀ {order idx}, s.FreeBlock order idx →
    s.pageState idx = .free ∧ s.pageOrd idx = UInt8.ofNat order
  reservedTag : ∀ {p}, p < numPages → own p = .reserved → s.pageState p = .reserved
  clientTag : ∀ {p n}, own p = .client n →
    0 < n ∧ (s.pageState p = .alloc ∨ s.pageState p = .slab) ∧ (s.pageRefs p).toNat = n
  count : ∀ order, s.buddyCount order = UInt32.ofNat (s.buddySent order).length
  total : s.totalFreePages = UInt32.ofNat (listedPages s.buddySent)

section

variable {own : Nat → Holder} {inHand : Nat → Prop} {s : Buddy}

theorem Sound.pool_of_free (sound : Sound own inHand s) {order idx p : Nat}
    (free : s.FreeBlock order idx) (covers : Covers idx order p) : own p = .pool ∧ ¬ inHand p :=
  (sound.listed p).mp ⟨order, idx, free, covers⟩

theorem Sound.not_head (sound : Sound own inHand s) {order p : Nat} (hand : inHand p) :
    ¬ s.FreeBlock order p :=
  fun free => (sound.pool_of_free free (covers_base p order)).2 hand

theorem Sound.inside (sound : Sound own inHand s) {order idx : Nat}
    (free : s.FreeBlock order idx) : idx + 2 ^ order ≤ numPages := by
  -- The last page of the block belongs to the pool, and only managed pages do.
  have size := Nat.two_pow_pos order
  have last := (sound.pool_of_free free (p := idx + (2 ^ order - 1)) ⟨by omega, by omega⟩).1
  have := sound.managed (p := idx + (2 ^ order - 1)) (by simp [last])
  omega

theorem listedPages_update (lists : Nat → List Nat) {order : Nat} (bound : order < maxOrder)
    (nodes : List Nat) :
    listedPages (Function.update lists order nodes) + (lists order).length * 2 ^ order
      = listedPages lists + nodes.length * 2 ^ order := by
  -- Both sums are split at the order whose list was replaced.
  have member : order ∈ Finset.range maxOrder := Finset.mem_range.mpr bound
  unfold listedPages
  rw [← Finset.add_sum_erase _ _ member, ← Finset.add_sum_erase _ _ member]
  have rest : ∑ o ∈ (Finset.range maxOrder).erase order,
      (Function.update lists order nodes o).length * 2 ^ o
        = ∑ o ∈ (Finset.range maxOrder).erase order, (lists o).length * 2 ^ o := by
    refine Finset.sum_congr rfl fun o inRest => ?_
    rw [Function.update_of_ne (Finset.ne_of_mem_erase inRest)]
  rw [rest, Function.update_self]
  omega

theorem Sound.congr (sound : Sound own inHand s) {inHand' : Nat → Prop}
    (same : ∀ p, inHand p ↔ inHand' p) : Sound own inHand' s := by
  obtain rfl : inHand = inHand' := funext fun p => propext (same p)
  exact sound

theorem Sound.listedPages_eq (sound : Sound own inHand s) :
    listedPages s.buddySent = Set.ncard {p | own p = .pool ∧ ¬ inHand p} := by
  -- The pages of the blocks of one order, and then of all orders, are counted as disjoint unions.
  let pages := fun order => (s.buddySent order).toFinset.biUnion fun idx => Finset.Ico idx (idx + 2 ^ order)
  have inPages : ∀ order p, p ∈ pages order ↔ ∃ idx, s.FreeBlock order idx ∧ Covers idx order p := by
    intro order p
    simp [pages, Buddy.FreeBlock, Covers]
  have orderCard : ∀ order, (pages order).card = (s.buddySent order).length * 2 ^ order := by
    intro order
    rw [Finset.card_biUnion]
    · simp [List.toFinset_card_of_nodup (sound.nodup order)]
    · intro first inFirst second inSecond different
      refine Finset.disjoint_left.mpr fun p covers covers' => ?_
      simp only [Finset.mem_Ico, List.coe_toFinset, Set.mem_ofPred_eq] at covers covers' inFirst inSecond
      exact different (sound.disjoint inFirst inSecond covers covers').2
  have allCard : ((Finset.range maxOrder).biUnion pages).card = listedPages s.buddySent := by
    rw [Finset.card_biUnion]
    · exact Finset.sum_congr rfl fun order _ => orderCard order
    · intro first _ second _ different
      refine Finset.disjoint_left.mpr fun p covers covers' => ?_
      obtain ⟨idx, free, covers⟩ := (inPages first p).mp covers
      obtain ⟨idx', free', covers'⟩ := (inPages second p).mp covers'
      exact different (sound.disjoint free free' covers covers').1
  rw [← allCard, ← Set.ncard_coe_finset]
  congr 1
  ext p
  simp only [Finset.coe_biUnion, Set.mem_iUnion, Finset.coe_range, Set.mem_Iio, Finset.mem_coe, Set.mem_ofPred_eq]
  constructor
  · rintro ⟨order, _, inOrder⟩
    obtain ⟨idx, free, covers⟩ := (inPages order p).mp inOrder
    exact sound.pool_of_free free covers
  · intro pool
    obtain ⟨order, idx, free, covers⟩ := (sound.listed p).mpr pool
    exact ⟨order, sound.orders free, (inPages order p).mpr ⟨idx, free, covers⟩⟩

theorem Sound.listedPages_le (sound : Sound own inHand s) : listedPages s.buddySent ≤ numPages := by
  have inside : {p | own p = .pool ∧ ¬ inHand p} ⊆ Set.Iio numPages := fun p pool =>
    sound.managed (by simp [pool.1])
  rw [sound.listedPages_eq]
  exact (Set.ncard_le_ncard inside (Set.finite_Iio numPages)).trans (by simp)

theorem Sound.totalFreePages_eq (sound : Sound own inHand s) :
    s.totalFreePages.toNat = listedPages s.buddySent := by
  -- All of managed memory is far below the range of the counter.
  have bound := sound.listedPages_le
  rw [sound.total, UInt32.toNat_ofNat_of_lt']
  exact Nat.lt_of_le_of_lt bound (by decide)

theorem Sound.buddyCount_eq (sound : Sound own inHand s) (order : Nat) :
    (s.buddyCount order).toNat = (s.buddySent order).length := by
  have bound : (s.buddySent order).length ≤ numPages := by
    rcases Nat.lt_or_ge order maxOrder with small | large
    · -- One list is one summand of the listed pages.
      have summand := Finset.single_le_sum (f := fun o => (s.buddySent o).length * 2 ^ o)
        (fun _ _ => Nat.zero_le _) (Finset.mem_range.mpr small)
      have size := Nat.le_mul_of_pos_right (s.buddySent order).length (Nat.two_pow_pos order)
      exact (size.trans summand).trans sound.listedPages_le
    · -- No block is linked past the largest order.
      cases nodes : s.buddySent order with
      | nil => simp
      | cons idx rest =>
        have linked : s.FreeBlock order idx := by simp [Buddy.FreeBlock, nodes]
        exact absurd (sound.orders linked) (Nat.not_lt.mpr large)
  rw [sound.count, UInt32.toNat_ofNat_of_lt']
  exact Nat.lt_of_le_of_lt bound (by decide)

theorem Sound.retag (sound : Sound own inHand s) {state : Nat → PageState} {ord : Nat → UInt8}
    {refs : Nat → UInt16} (stateKept : ∀ p, ¬ inHand p → state p = s.pageState p)
    (ordKept : ∀ p, ¬ inHand p → ord p = s.pageOrd p)
    (refsKept : ∀ p n, own p = .client n → refs p = s.pageRefs p) :
    Sound own inHand { s with pageState := state, pageOrd := ord, pageRefs := refs } := by
  -- Heads of free blocks, client pages and reserved pages are never in hand.
  refine { sound with
    freeTag := ?_
    reservedTag := ?_
    clientTag := ?_
    count := sound.count
    total := sound.total }
  · intro order idx free
    have apart := (sound.pool_of_free free (covers_base idx order)).2
    simpa [stateKept idx apart, ordKept idx apart] using sound.freeTag free
  · intro p bound reserved
    have apart : ¬ inHand p := fun hand => by simp [sound.handPool hand] at reserved
    simpa [stateKept p apart] using sound.reservedTag bound reserved
  · intro p n client
    have apart : ¬ inHand p := fun hand => by simp [sound.handPool hand] at client
    simpa [stateKept p apart, refsKept p n client] using sound.clientTag client

theorem Sound.take (sound : Sound own inHand s) {order idx : Nat} (free : s.FreeBlock order idx) :
    Sound own (fun p => inHand p ∨ Covers idx order p)
      { s with
        buddySent := Function.update s.buddySent order ((s.buddySent order).erase idx)
        buddyCount := Function.update s.buddyCount order (s.buddyCount order - 1)
        totalFreePages := s.totalFreePages - pagesOf order } := by
  -- Only the one block leaves the lists, and the others do not meet it.
  have bound := sound.orders free
  have length : ((s.buddySent order).erase idx).length + 1 = (s.buddySent order).length := by
    rw [List.length_erase_of_mem free]
    have := List.length_pos_of_mem free
    omega
  have member : ∀ o i, i ∈ Function.update s.buddySent order ((s.buddySent order).erase idx) o ↔
      s.FreeBlock o i ∧ ¬ (o = order ∧ i = idx) := by
    intro o i
    by_cases same : o = order
    · subst same
      rw [Function.update_self, (sound.nodup o).mem_erase_iff]
      simp [Buddy.FreeBlock, and_comm]
    · simp [Buddy.FreeBlock, same]
  refine
    { orders := fun other => sound.orders ((member _ _).mp other).1
      aligned := fun other => sound.aligned ((member _ _).mp other).1
      nodup := ?_
      disjoint := fun first second => sound.disjoint ((member _ _).mp first).1 ((member _ _).mp second).1
      listed := ?_
      handPool := ?_
      managed := sound.managed
      freeTag := fun other => sound.freeTag ((member _ _).mp other).1
      reservedTag := sound.reservedTag
      clientTag := sound.clientTag
      count := ?_
      total := ?_ }
  · intro o
    by_cases same : o = order
    · subst same
      simpa using (sound.nodup o).erase idx
    · simpa [Function.update_of_ne same] using sound.nodup o
  · intro p
    constructor
    · rintro ⟨o, i, other, covers⟩
      obtain ⟨other, different⟩ := (member o i).mp other
      obtain ⟨pool, apart⟩ := sound.pool_of_free other covers
      refine ⟨pool, ?_⟩
      rintro (hand | inside)
      · exact apart hand
      · exact different (sound.disjoint other free covers inside)
    · rintro ⟨pool, outside⟩
      obtain ⟨o, i, other, covers⟩ := (sound.listed p).mpr ⟨pool, fun hand => outside (Or.inl hand)⟩
      refine ⟨o, i, (member o i).mpr ⟨other, ?_⟩, covers⟩
      rintro ⟨rfl, rfl⟩
      exact outside (Or.inr covers)
  · rintro p (hand | inside)
    · exact sound.handPool hand
    · exact (sound.pool_of_free free inside).1
  · intro o
    by_cases same : o = order
    · subst same
      simp only [Function.update_self, sound.count, ← length, UInt32.ofNat_add]
      simp
    · simpa [Function.update_of_ne same] using sound.count o
  · have listed := listedPages_update s.buddySent bound ((s.buddySent order).erase idx)
    rw [← length, Nat.add_mul, Nat.one_mul] at listed
    have before : listedPages s.buddySent =
        listedPages (Function.update s.buddySent order ((s.buddySent order).erase idx)) + 2 ^ order := by
      omega
    rw [sound.total, before, UInt32.ofNat_add]
    simp [pagesOf, Nat.one_shiftLeft]

theorem Sound.give (sound : Sound own inHand s) {order idx : Nat} (bound : order < maxOrder)
    (aligned : Aligned idx order) (hand : ∀ p, Covers idx order p → inHand p) :
    Sound own (fun p => inHand p ∧ ¬ Covers idx order p) (buddyAddBlock s idx order) := by
  -- The pages in hand are on no list, so the new block meets no other.
  have fresh : ∀ {o i p}, s.FreeBlock o i → Covers i o p → ¬ Covers idx order p :=
    fun free covers inside => (sound.pool_of_free free covers).2 (hand _ inside)
  have member : ∀ o i, (buddyAddBlock s idx order).FreeBlock o i ↔
      s.FreeBlock o i ∨ (o = order ∧ i = idx) := by
    intro o i
    by_cases same : o = order
    · subst same
      simp [buddyAddBlock, Buddy.FreeBlock, or_comm]
    · simp [buddyAddBlock, Buddy.FreeBlock, same]
  have headApart : ∀ {o i}, s.FreeBlock o i → i ≠ idx := by
    rintro o i free rfl
    exact sound.not_head (hand i (covers_base i order)) free
  have handHead := hand idx (covers_base idx order)
  refine
    { orders := ?_, aligned := ?_, nodup := ?_, disjoint := ?_, listed := ?_, handPool := ?_
      managed := sound.managed, freeTag := ?_, reservedTag := ?_, clientTag := ?_, count := ?_
      total := ?_ }
  · intro o i free
    rcases (member o i).mp free with free | ⟨rfl, rfl⟩
    · exact sound.orders free
    · exact bound
  · intro o i free
    rcases (member o i).mp free with free | ⟨rfl, rfl⟩
    · exact sound.aligned free
    · exact aligned
  · intro o
    by_cases same : o = order
    · subst same
      simp only [buddyAddBlock, Function.update_self, List.nodup_cons]
      exact ⟨sound.not_head handHead, sound.nodup o⟩
    · simpa [buddyAddBlock, Function.update_of_ne same] using sound.nodup o
  · intro o i o' i' p free free' covers covers'
    rcases (member o i).mp free with old | ⟨rfl, rfl⟩
    · rcases (member o' i').mp free' with old' | ⟨rfl, rfl⟩
      · exact sound.disjoint old old' covers covers'
      · exact (fresh old covers covers').elim
    · rcases (member o' i').mp free' with old' | ⟨rfl, rfl⟩
      · exact (fresh old' covers' covers).elim
      · exact ⟨rfl, rfl⟩
  · intro p
    constructor
    · rintro ⟨o, i, free, covers⟩
      rcases (member o i).mp free with free | ⟨rfl, rfl⟩
      · obtain ⟨pool, apart⟩ := sound.pool_of_free free covers
        exact ⟨pool, fun both => apart both.1⟩
      · exact ⟨sound.handPool (hand p covers), fun both => both.2 covers⟩
    · rintro ⟨pool, outside⟩
      by_cases covers : Covers idx order p
      · exact ⟨order, idx, (member _ _).mpr (Or.inr ⟨rfl, rfl⟩), covers⟩
      · obtain ⟨o, i, free, inside⟩ := (sound.listed p).mpr ⟨pool, fun h => outside ⟨h, covers⟩⟩
        exact ⟨o, i, (member _ _).mpr (Or.inl free), inside⟩
  · exact fun both => sound.handPool both.1
  · intro o i free
    rcases (member o i).mp free with free | ⟨rfl, rfl⟩
    · simpa [buddyAddBlock, Function.update_of_ne (headApart free)] using sound.freeTag free
    · simp [buddyAddBlock]
  · intro p managed reserved
    have apart : p ≠ idx := by
      rintro rfl
      simp [sound.handPool handHead] at reserved
    simpa [buddyAddBlock, Function.update_of_ne apart] using sound.reservedTag managed reserved
  · intro p n client
    have apart : p ≠ idx := by
      rintro rfl
      simp [sound.handPool handHead] at client
    simpa [buddyAddBlock, Function.update_of_ne apart] using sound.clientTag client
  · intro o
    by_cases same : o = order
    · subst same
      simp [buddyAddBlock, sound.count, UInt32.ofNat_add]
    · simpa [buddyAddBlock, Function.update_of_ne same] using sound.count o
  · have listed := listedPages_update s.buddySent bound (idx :: s.buddySent order)
    rw [List.length_cons, Nat.add_mul, Nat.one_mul] at listed
    have after : listedPages (Function.update s.buddySent order (idx :: s.buddySent order)) =
        listedPages s.buddySent + 2 ^ order := by
      omega
    simp [buddyAddBlock, after, sound.total, pagesOf, Nat.one_shiftLeft, UInt32.ofNat_add]

theorem Sound.handOut (sound : Sound own inHand s) {pages : Nat → Prop}
    [DecidablePred pages] (hand : ∀ p, pages p → inHand p) {state : Nat → PageState}
    {ord : Nat → UInt8} {refs : Nat → UInt16} (marked : ∀ p, pages p → state p = .alloc ∧ refs p = 1)
    (kept : ∀ p, ¬ pages p → state p = s.pageState p ∧ ord p = s.pageOrd p ∧ refs p = s.pageRefs p) :
    Sound (fun p => if pages p then .client 1 else own p) (fun p => inHand p ∧ ¬ pages p)
      { s with pageState := state, pageOrd := ord, pageRefs := refs } := by
  have headApart : ∀ {o i}, s.FreeBlock o i → ¬ pages i := fun free page =>
    sound.not_head (hand _ page) free
  refine { sound with listed := ?_, handPool := ?_, managed := ?_, freeTag := ?_, reservedTag := ?_
                      clientTag := ?_, count := sound.count, total := sound.total }
  · intro p
    by_cases page : pages p
    · have outside := (sound.listed p).not.mpr fun both => both.2 (hand p page)
      simpa [page, Buddy.FreeBlock] using outside
    · simpa [page, Buddy.FreeBlock] using sound.listed p
  · rintro p ⟨hand, page⟩
    simpa [page] using sound.handPool hand
  · intro p
    by_cases page : pages p
    · intro _
      exact sound.managed (by simp [sound.handPool (hand p page)])
    · simpa [page] using sound.managed (p := p)
  · intro o i free
    obtain ⟨stateSame, ordSame, _⟩ := kept i (headApart free)
    simpa [stateSame, ordSame] using sound.freeTag free
  · intro p bound reserved
    by_cases page : pages p
    · simp [page] at reserved
    · simpa [(kept p page).1] using sound.reservedTag bound (by simpa [page] using reserved)
  · intro p n client
    by_cases page : pages p
    · obtain rfl : 1 = n := by simpa [page] using client
      simp [(marked p page).1, (marked p page).2]
    · simpa [(kept p page).1, (kept p page).2.2] using
        sound.clientTag (p := p) (n := n) (by simpa [page] using client)

theorem Sound.takeBack (sound : Sound own (fun _ => False) s) {page n : Nat}
    (client : own page = .client n) (refs : UInt16) :
    Sound (Function.update own page .pool) (Covers page 0)
      { s with pageRefs := Function.update s.pageRefs page refs } := by
  refine { sound with listed := ?_, handPool := ?_, managed := ?_, freeTag := sound.freeTag
                      reservedTag := ?_, clientTag := ?_, count := sound.count, total := sound.total }
  · intro p
    by_cases same : p = page
    · subst same
      have outside := (sound.listed p).not.mpr (by simp [client])
      simpa [covers_zero, Buddy.FreeBlock] using outside
    · simpa [covers_zero, Buddy.FreeBlock, same] using sound.listed p
  · intro p hand
    obtain rfl := covers_zero.mp hand
    simp
  · intro p held
    by_cases same : p = page
    · subst same
      exact sound.managed (by simp [client])
    · exact sound.managed (by simpa [Function.update_of_ne same] using held)
  · intro p bound reserved
    by_cases same : p = page
    · subst same
      simp at reserved
    · exact sound.reservedTag bound (by simpa [Function.update_of_ne same] using reserved)
  · intro p m held
    by_cases same : p = page
    · subst same
      simp at held
    · simpa [Function.update_of_ne same] using
        sound.clientTag (p := p) (n := m) (by simpa [Function.update_of_ne same] using held)

theorem Sound.recount (sound : Sound own (fun _ => False) s) {page n m : Nat}
    (client : own page = .client n) (positive : 0 < m) {refs : UInt16} (counted : refs.toNat = m) :
    Sound (Function.update own page (.client m)) (fun _ => False)
      { s with pageRefs := Function.update s.pageRefs page refs } := by
  refine { sound with listed := ?_, handPool := fun hand => hand.elim, managed := ?_
                      freeTag := sound.freeTag, reservedTag := ?_, clientTag := ?_
                      count := sound.count, total := sound.total }
  · intro p
    by_cases same : p = page
    · subst same
      simpa [client, Buddy.FreeBlock] using sound.listed p
    · simpa [same, Buddy.FreeBlock] using sound.listed p
  · intro p held
    by_cases same : p = page
    · subst same
      exact sound.managed (by simp [client])
    · exact sound.managed (by simpa [same] using held)
  · intro p bound reserved
    by_cases same : p = page
    · subst same
      simp at reserved
    · exact sound.reservedTag bound (by simpa [same] using reserved)
  · intro p k held
    by_cases same : p = page
    · subst same
      obtain rfl : m = k := by simpa using held
      simpa [counted] using ⟨positive, (sound.clientTag client).2.1⟩
    · simpa [same] using sound.clientTag (p := p) (n := k) (by simpa [same] using held)

end

end Enlil.Pmm
