import Enlil.Lib.Run
import Enlil.Pmm.BuddyInvariant

/-! What each call of the buddy allocator does to the invariant and to the holders of pages. -/

namespace Enlil.Pmm

open AlignedBlock

theorem unmanaged_eq_false {pa : Nat} :
    unmanaged pa = false ↔ 0x40000000 ≤ pa ∧ pa < 0x60000000 := by
  rw [unmanaged, Bool.or_eq_false_iff, decide_eq_false_iff_not, decide_eq_false_iff_not,
    pmmBase, pmmEnd]
  omega

theorem pageOf_lt {pa : Nat} (managed : unmanaged pa = false) : pageOf pa < numPages := by
  rw [unmanaged_eq_false] at managed
  simp only [pageOf, paToIdx, pageMask, numPages, pmmBase, pmmEnd, pageSize]
  omega

theorem pageOf_add {pa : Nat} (managed : unmanaged pa = false) (count : Nat) :
    pageOf (pa + count * pageSize) = pageOf pa + count := by
  rw [unmanaged_eq_false] at managed
  simp only [pageOf, paToIdx, pageMask, pmmBase, pageSize]
  omega

theorem unmanaged_idxToPa {idx : Nat} : unmanaged (idxToPa idx) = false ↔ idx < numPages := by
  rw [unmanaged_eq_false]
  simp only [numPages, pmmBase, pmmEnd, pageSize, idxToPa]
  omega

section

variable {own : Nat → Holder} {inHand : Nat → Prop} {s : Buddy}

theorem markBlock_eq (s : Buddy) (idx count : Nat) :
    markBlock s idx count =
      { s with
        pageState := fun p => if idx ≤ p ∧ p < idx + count then .alloc else s.pageState p
        pageOrd := fun p => if idx ≤ p ∧ p < idx + count then 0xFF else s.pageOrd p
        pageRefs := fun p => if idx ≤ p ∧ p < idx + count then 1 else s.pageRefs p } := by
  -- Each step adds the next page to the marked range.
  induction count with
  | zero =>
    have empty : ∀ p, ¬ (idx ≤ p ∧ p < idx + 0) := by omega
    simp only [markBlock, empty, if_false]
  | succ count ih =>
    have next : ∀ p, (idx ≤ p ∧ p < idx + (count + 1)) ↔ p = idx + count ∨ (idx ≤ p ∧ p < idx + count) := by
      omega
    simp only [markBlock, ih, markAlloc, Buddy.mk.injEq, and_true]
    refine ⟨?_, ?_, ?_⟩ <;>
    · funext p
      by_cases same : p = idx + count
      · simp [same]
      · simp [next, same]

theorem Sound.split {idx order : Nat} (steps : Nat) :
    ∀ {s : Buddy}, Sound own (Covers idx (order + steps)) s → Aligned idx (order + steps) →
      order + steps < maxOrder → Sound own (Covers idx order) (splitBlock s idx order steps) := by
  -- Each step gives the upper half of the block in hand to the list of its order.
  induction steps with
  | zero => intro s sound _ _; exact sound
  | succ steps ih =>
    intro s sound aligned bound
    have half := sound.give (by omega : order + steps < maxOrder) (Aligned.upper aligned)
      fun p covers => covers_succ.mpr (Or.inr covers)
    refine ih (half.congr fun p => ?_) (aligned.mono (by omega)) (by omega)
    rw [← Nat.add_assoc, covers_succ]
    constructor
    · rintro ⟨lower | upper, outside⟩
      · exact lower
      · exact (outside upper).elim
    · exact fun lower => ⟨Or.inl lower, halves_disjoint lower⟩

theorem findOrder_spec (s : Buddy) (order fuel : Nat) :
    order ≤ findOrder s order fuel ∧
      (findOrder s order fuel = order + fuel ∨
        findOrder s order fuel < order + fuel ∧ s.buddySent (findOrder s order fuel) ≠ []) := by
  induction fuel generalizing order with
  | zero => simp [findOrder]
  | succ fuel ih =>
    simp only [findOrder]
    split
    · obtain ⟨lower, rest⟩ := ih (order + 1)
      exact ⟨by omega, by rw [show order + (fuel + 1) = order + 1 + fuel by omega]; exact rest⟩
    · rename_i occupied
      exact ⟨Nat.le_refl _, Or.inr ⟨by omega, by simpa using occupied⟩⟩

theorem Sound.takeBlock (sound : Sound own (fun _ => False) s) {order : Nat} {message : String}
    {idx : Nat} {s' : Buddy} (bound : order < maxOrder)
    (taken : takeBlock s order message = .ok (idx, s')) :
    Aligned idx order ∧ (∀ p, Covers idx order p → own p = .pool) ∧
      Sound own (Covers idx order) s' := by
  obtain ⟨lower, stop⟩ := findOrder_spec s order (maxOrder - order)
  simp only [Pmm.takeBlock] at taken
  generalize findOrder s order (maxOrder - order) = found at *
  split at taken
  · cases taken
  rename_i below
  -- The list is not empty, so the popped node is a free block of the found order.
  have small : found < maxOrder := by omega
  have occupied : s.buddySent found ≠ [] := by
    rcases stop with last | ⟨_, occupied⟩
    · omega
    · exact occupied
  obtain ⟨head, rest, nodes⟩ := List.exists_cons_of_ne_nil occupied
  have free : s.FreeBlock found head := by simp [Buddy.FreeBlock, nodes]
  have popped := sound.take free
  simp only [nodes, List.erase_cons_head] at popped
  simp only [popBlock, nodes, List.headD_cons, List.tail_cons, Except.ok.injEq, Prod.mk.injEq] at taken
  obtain ⟨rfl, rfl⟩ := taken
  have sum : order + (found - order) = found := by omega
  have aligned := sound.aligned free
  refine ⟨aligned.mono lower, ?_, ?_⟩
  · intro p covers
    exact (sound.pool_of_free free (nested (aligned.mono lower) aligned lower
      (covers_base head order) (covers_base head found) covers)).1
  · refine Sound.split (found - order) ?_ (by rwa [sum]) (by rwa [sum])
    rw [sum]
    exact popped.congr fun p => by simp

/-- What a returning allocation of a block of pages gives. -/
structure Granted (own : Nat → Holder) (order idx : Nat) (s' : Buddy) : Prop where
  aligned : Aligned idx order
  /-- No page of the block was held by anyone. -/
  unheld : ∀ p, Covers idx order p → own p = .pool
  sound : Sound (fun p => if Covers idx order p then .client 1 else own p) (fun _ => False) s'

theorem Granted.fewer {order idx : Nat} {s' : Buddy} (sound : Sound own (fun _ => False) s)
    (granted : Granted own order idx s') :
    s'.totalFreePages.toNat + 2 ^ order = s.totalFreePages.toNat := by
  rw [granted.sound.totalFreePages_eq, sound.totalFreePages_eq, granted.sound.listedPages_eq, sound.listedPages_eq]
  -- The pool loses the pages of the block, which were all in it.
  have block : Set.Ico idx (idx + 2 ^ order) ⊆ {p | own p = .pool ∧ ¬ False} :=
    fun p inside => ⟨granted.unheld p inside, id⟩
  have rest : {p | (if Covers idx order p then Holder.client 1 else own p) = .pool ∧ ¬ False} =
      {p | own p = .pool ∧ ¬ False} \ Set.Ico idx (idx + 2 ^ order) := by
    ext p
    by_cases inside : Covers idx order p
    · simp [inside, show p ∈ Set.Ico idx (idx + 2 ^ order) from inside]
    · simp [inside, show p ∉ Set.Ico idx (idx + 2 ^ order) from inside]
  have finite : {p | own p = .pool ∧ ¬ False}.Finite :=
    (Set.finite_Iio numPages).subset fun p pool => sound.managed (by simp [pool.1])
  have size := Set.ncard_le_ncard block finite
  rw [rest, Set.ncard_sdiff block]
  have length : idx + 2 ^ order - idx = 2 ^ order := Nat.add_sub_cancel_left _ _
  rw [Set.ncard_Ico_nat, length] at size ⊢
  omega

theorem Granted.of_mark {order idx : Nat} (aligned : Aligned idx order)
    (unheld : ∀ p, Covers idx order p → own p = .pool) (sound : Sound own (Covers idx order) s) :
    Granted own order idx (markBlock s idx (2 ^ order)) := by
  refine ⟨aligned, unheld, ?_⟩
  rw [markBlock_eq]
  refine (sound.handOut (fun _ covers => covers) ?_ ?_).congr fun p => by simp
  · intro p covers
    have inside : idx ≤ p ∧ p < idx + 2 ^ order := covers
    simp [inside]
  · intro p outside
    have outside : ¬ (idx ≤ p ∧ p < idx + 2 ^ order) := outside
    simp [outside]

theorem Sound.physAllocPage (sound : Sound own (fun _ => False) s) {pa : Nat} {s' : Buddy}
    (returned : physAllocPage s = .ok (pa, s')) :
    ∃ idx, pa = idxToPa idx ∧ Granted own 0 idx s' := by
  obtain ⟨⟨idx, s₁⟩, taken, rest⟩ := bind_ok returned
  obtain ⟨aligned, unheld, sound₁⟩ := sound.takeBlock (by decide) taken
  cases rest
  refine ⟨idx, rfl, ?_⟩
  have marked : markBlock s₁ idx (2 ^ 0) = markAlloc s₁ idx := rfl
  exact marked ▸ Granted.of_mark aligned unheld sound₁

theorem Sound.physAllocPages (sound : Sound own (fun _ => False) s) {order pa : Nat} {s' : Buddy}
    (returned : physAllocPages s order = .ok (pa, s')) :
    order < maxOrder ∧ ∃ idx, pa = idxToPa idx ∧ Granted own order idx s' := by
  unfold Pmm.physAllocPages at returned
  by_cases large : order ≥ maxOrder
  · simp [large, throw, throwThe, MonadExceptOf.throw, Bind.bind, Except.bind] at returned
  · simp only [large, if_false] at returned
    obtain ⟨⟨idx, s₁⟩, taken, rest⟩ := bind_ok returned
    obtain ⟨aligned, unheld, sound₁⟩ := sound.takeBlock (by omega) taken
    cases rest
    rw [Nat.one_shiftLeft]
    exact ⟨by omega, idx, rfl, Granted.of_mark aligned unheld sound₁⟩

theorem Sound.mergeable_free {idx order : Nat} (sound : Sound own (Covers idx order) s)
    (aligned : Aligned idx order) (bound : order < maxOrder)
    (merge : mergeable s (buddy idx order) order = true) : s.FreeBlock order (buddy idx order) := by
  simp only [mergeable, Bool.and_eq_true, Bool.not_eq_true', decide_eq_true_eq] at merge
  obtain ⟨⟨⟨managed, free⟩, sameOrder⟩, _⟩ := merge
  have apart : ¬ Covers idx order (buddy idx order) := fun covers =>
    buddy_disjoint aligned covers (covers_base _ _)
  have inside := unmanaged_idxToPa.mp managed
  -- A free tag rules out every holder but the pool.
  have pool : own (buddy idx order) = .pool := by
    cases holder : own (buddy idx order) with
    | reserved => simp [sound.reservedTag inside holder] at free
    | client n => rcases (sound.clientTag holder).2.1 with tag | tag <;> simp [tag] at free
    | pool => rfl
  obtain ⟨order', base, linked, covers⟩ := (sound.listed _).mpr ⟨pool, apart⟩
  -- A larger free block there would also cover the block in hand.
  have small : order' ≤ order := by
    by_contra large
    have covered := covers_of_covers_buddy aligned (sound.aligned linked) (by omega)
      (covers_base _ _) covers
    exact (sound.pool_of_free linked covered).2 (covers_base idx order)
  obtain rfl := base_of_covers (sound.aligned linked) (buddy_aligned aligned) small covers
  have tag := (sound.freeTag linked).2
  rw [sameOrder] at tag
  have orders := sound.orders linked
  have equal := congrArg UInt8.toNat tag
  simp only [UInt8.toNat_ofNat', maxOrder] at equal orders bound
  obtain rfl : order = order' := by omega
  exact linked

theorem Sound.buddyRemoveBlock (sound : Sound own inHand s) {idx order : Nat}
    (free : s.FreeBlock order idx) :
    ∃ s', buddyRemoveBlock s idx order = .ok s' ∧
      Sound own (fun p => inHand p ∨ Covers idx order p) s' := by
  have linked : s.linked idx = true := by
    simp only [Buddy.linked, List.any_eq_true, List.mem_range, List.contains_iff_mem]
    exact ⟨order, sound.orders free, free⟩
  -- The node is on one list only, so erasing it everywhere erases it there.
  have lists : (fun o => (s.buddySent o).erase idx) =
      Function.update s.buddySent order ((s.buddySent order).erase idx) := by
    funext o
    by_cases same : o = order
    · simp [same]
    · rw [Function.update_of_ne same, List.erase_of_not_mem]
      intro other
      exact same (sound.disjoint other free (covers_base idx o) (covers_base idx order)).1
  refine ⟨_, by simp [Pmm.buddyRemoveBlock, listRemove, linked, Bind.bind, Except.bind,
    Pure.pure, Except.pure, lists]; rfl, ?_⟩
  refine (sound.take free).retag ?_ ?_ fun p n client => rfl
  · intro p outside
    rw [Function.update_of_ne]
    rintro rfl
    exact outside (Or.inr (covers_base p order))
  · intro p outside
    rw [Function.update_of_ne]
    rintro rfl
    exact outside (Or.inr (covers_base p order))

theorem Sound.coalesce (fuel : Nat) :
    ∀ {s : Buddy} {idx order : Nat}, Sound own (Covers idx order) s → Aligned idx order →
      order + fuel < maxOrder →
      ∃ s' idx' order', coalesce s idx order fuel = .ok (s', idx', order') ∧
        Aligned idx' order' ∧ order' < maxOrder ∧ Sound own (Covers idx' order') s' := by
  -- Each merge doubles the block in hand, and the block stays aligned at its new order.
  induction fuel with
  | zero =>
    intro s idx order sound aligned bound
    exact ⟨s, idx, order, rfl, aligned, by omega, sound⟩
  | succ fuel ih =>
    intro s idx order sound aligned bound
    simp only [Pmm.coalesce]
    split
    · rename_i merge
      obtain ⟨s₁, removed, sound₁⟩ :=
        sound.buddyRemoveBlock (sound.mergeable_free aligned (by omega) merge)
      have merged := sound₁.congr fun p => (covers_merge aligned).symm
      obtain ⟨s', idx', order', rest⟩ := ih merged (min_buddy_aligned aligned) (by omega)
      exact ⟨s', idx', order', by simp [removed, Bind.bind, Except.bind, rest.1], rest.2⟩
    · exact ⟨s, idx, order, rfl, aligned, by omega, sound⟩

/-- A reference given back. -/
def Holder.released : Holder → Holder
  | .client n => if n ≤ 1 then .pool else .client (n - 1)
  | holder => holder

/-- A reference added. -/
def Holder.retained : Holder → Holder
  | .client n => .client (n + 1)
  | holder => holder

theorem Sound.physFreePage (sound : Sound own (fun _ => False) s) {pa n : Nat}
    (managed : unmanaged pa = false) (client : own (pageOf pa) = .client n) :
    ∃ s', physFreePage s pa = .ok s' ∧
      Sound (Function.update own (pageOf pa) (.released (.client n))) (fun _ => False) s' := by
  obtain ⟨positive, tag, refs⟩ := sound.clientTag client
  have touchable : (s.pageState (pageOf pa)).untouchable = false := by
    rcases tag with tag | tag <;> simp [tag, PageState.untouchable]
  simp only [Pmm.physFreePage, managed, touchable, Bool.false_eq_true, if_false]
  split
  · -- Other references remain, so only the counter moves.
    rename_i shared
    have more : 1 < n := by
      have := UInt16.lt_iff_toNat_lt.mp shared
      simpa [refs] using this
    refine ⟨_, rfl, ?_⟩
    have lowered : (s.pageRefs (pageOf pa) - 1).toNat = n - 1 := by
      rw [UInt16.toNat_sub_of_le _ _ (UInt16.le_of_lt shared), refs]
      rfl
    simpa [Holder.released, Nat.not_le.mpr more] using
      sound.recount client (by omega) lowered
  · -- The page is taken back, merged as far as it goes, and given to a list.
    rename_i last
    have one : n ≤ 1 := by
      have := UInt16.lt_iff_toNat_lt.not.mp last
      simpa [refs] using this
    obtain ⟨s₁, idx', order', merged, aligned, bound, sound₁⟩ :=
      Sound.coalesce (maxOrder - 1) (sound.takeBack client 0) (aligned_zero _) (by decide)
    refine ⟨buddyAddBlock s₁ idx' order', by rw [merged]; rfl, ?_⟩
    simpa [Holder.released, one] using
      (sound₁.give bound aligned fun _ covers => covers).congr fun p => by simp

end

end Enlil.Pmm
