import Enlil.Mmu.Tracking

/-! What mapping fresh pages, copying pages and unmapping pages do to the bytes that user code sees. -/

namespace Enlil.Mmu

open Pmm

/-- Two pages that do not overlap. -/
def Separate (pa pa' : Nat) : Prop := pa + pageSize ≤ pa' ∨ pa' + pageSize ≤ pa

/-- No leaf of a space maps a page. -/
def Unmapped (space : Space) (page : Nat) : Prop :=
  ∀ {index pte}, space.leaves.get? index = some pte → holds pte.pa page = false

/-- What mapping fresh pages to the end of a range does to a space and its bytes. -/
structure Fills (mm mm' : Mm) (va n : Nat) : Prop where
  kept : ∀ {index pte}, mm.space.leaves.get? index = some pte → mm'.space.leaves.get? index = some pte
  bytes : ∀ {index pte}, mm.space.leaves.get? index = some pte → ∀ offset < pageSize,
    mm'.memory (pte.pa + offset) = mm.memory (pte.pa + offset)
  vacant : ∀ i < n, mm.space.leaves.get? (pageIndex (va + i * pageSize)) = none
  /-- Every page of the range gets a leaf, and the only one to map its page. -/
  fresh : ∀ i < n, ∃ page pte, mm'.space.leaves.get? (pageIndex (va + i * pageSize)) = some pte ∧
    pte.pa = idxToPa page ∧ page < numPages ∧
      ∀ {index other}, mm'.space.leaves.get? index = some other → holds other.pa page = true →
        index = pageIndex (va + i * pageSize)
  added : ∀ {index pte}, mm'.space.leaves.get? index = some pte →
    mm.space.leaves.get? index = some pte ∨ ∀ {page}, holds pte.pa page = true → Unmapped mm.space page

/-- An address in a range that the window takes. -/
def Struck (start size va : Nat) : Prop := inWindow start size = true ∧ start ≤ va ∧ va < start + size

section

variable {reserved : Nat → Bool} {shared : Nat → Prop} {outer hand : Nat → Nat} {mm mm' mm₂ : Mm} {space : Space}
  {va pa start size page m n : Nat} {pte : Pte} {done : Bool} {buddy : Buddy} {prot : Prot}

theorem Unmapped.of_refs (none : spaceRefs space page = 0) : Unmapped space page := by
  intro index pte leaf
  rw [Bool.eq_false_iff]
  exact fun here => spaceRefs_pos leaf here none

theorem Fills.zero (leaves : mm'.space.leaves = mm.space.leaves)
    (bytes : ∀ {index pte}, mm.space.leaves.get? index = some pte → ∀ offset < pageSize,
      mm'.memory (pte.pa + offset) = mm.memory (pte.pa + offset)) (va : Nat) : Fills mm mm' va 0 := by
  refine ⟨fun leaf => by rw [leaves]; exact leaf, bytes, fun i below => absurd below (Nat.not_lt_zero i),
    fun i below => absurd below (Nat.not_lt_zero i), fun leaf => Or.inl ?_⟩
  rw [← leaves]
  exact leaf

theorem Fills.trans (first : Fills mm mm₂ va m) (second : Fills mm₂ mm' (va + m * pageSize) n) :
    Fills mm mm' va (m + n) := by
  have next : ∀ i, m ≤ i → va + i * pageSize = va + m * pageSize + (i - m) * pageSize := by
    intro i high
    obtain ⟨j, rfl⟩ : ∃ j, i = m + j := ⟨i - m, by omega⟩
    rw [Nat.add_sub_cancel_left]
    ring
  have before : ∀ {index}, mm₂.space.leaves.get? index = none → mm.space.leaves.get? index = none := by
    intro index absent
    by_contra present
    obtain ⟨pte, leaf⟩ := Option.ne_none_iff_exists'.mp present
    rw [first.kept leaf] at absent
    cases absent
  have unmapped : ∀ {page}, Unmapped mm₂.space page → Unmapped mm.space page := fun free _ _ leaf => free (first.kept leaf)
  refine ⟨fun leaf => second.kept (first.kept leaf), fun leaf offset inside => ?_, fun i below => ?_, fun i below => ?_,
    fun {index pte} leaf => ?_⟩
  · rw [second.bytes (first.kept leaf) offset inside, first.bytes leaf offset inside]
  · rcases Nat.lt_or_ge i m with low | high
    · exact first.vacant i low
    · rw [next i high]
      exact before (second.vacant (i - m) (by omega))
  · rcases Nat.lt_or_ge i m with low | high
    · obtain ⟨page, pte, leaf, whole, inside, alone⟩ := first.fresh i low
      refine ⟨page, pte, second.kept leaf, whole, inside, fun {index other} leaf' here => ?_⟩
      rcases second.added leaf' with old | new
      · exact alone old here
      · -- The page is mapped by now, and so it is not given a second time.
        have mapped : holds pte.pa page = true := by
          rw [whole, holds_pteAddr (pteAddr_idxToPa inside)]
          exact ⟨rfl, inside⟩
        rw [new here leaf] at mapped
        cases mapped
    · rw [next i high]
      obtain ⟨page, pte, leaf, whole, inside, alone⟩ := second.fresh (i - m) (by omega)
      exact ⟨page, pte, leaf, whole, inside, alone⟩
  · rcases second.added leaf with old | new
    · exact first.added old
    · exact Or.inr fun here => unmapped (new here)

theorem Fills.setLeaf (absent : mm.space.leaves.get? (pageIndex va) = none) (free : Unmapped mm.space page)
    (inside : page < numPages) (whole : pte.pa = idxToPa page) : Fills mm (mm.setLeaf (pageIndex va) pte) va 1 := by
  have only : ∀ i, i < 1 → va + i * pageSize = va := by
    intro i below
    rw [Nat.lt_one_iff.mp below, Nat.zero_mul, Nat.add_zero]
  have get : ∀ index, (mm.setLeaf (pageIndex va) pte).space.leaves.get? index =
      if index = pageIndex va then some pte else mm.space.leaves.get? index := fun index =>
    SortedMap.get?_set _ _ _ _
  refine ⟨fun {index pte'} leaf => ?_, fun _ _ _ => rfl, fun i below => by rw [only i below]; exact absent,
    fun i below => ?_, fun {index pte'} leaf => ?_⟩
  · rw [get, if_neg]
    · exact leaf
    · rintro rfl
      rw [absent] at leaf
      cases leaf
  · rw [only i below]
    refine ⟨page, pte, by rw [get, if_pos rfl], whole, inside, fun {index other} leaf here => ?_⟩
    rw [get] at leaf
    split at leaf
    · assumption
    · rw [free leaf] at here
      cases here
  · rw [get] at leaf
    split at leaf
    · cases leaf
      refine Or.inr fun {other} here => ?_
      rw [whole, holds_idxToPa inside] at here
      rw [here]
      exact free
    · exact Or.inl leaf

theorem mapUserPagesRaw_fills (n : Nat) : ∀ {mm : Mm} {va idx : Nat}, idx + n ≤ numPages →
    (∀ page, idx ≤ page → page < idx + n → Unmapped mm.space page) →
    mapUserPagesRaw mm va (idxToPa idx) prot n = .ok (true, mm') → Fills mm mm' va n := by
  induction n with
  | zero =>
    intro mm va idx _ _ ran
    cases ran
    exact .zero rfl (fun _ _ _ => rfl) va
  | succ n ih =>
    intro mm va idx inside free ran
    rw [mapUserPagesRaw] at ran
    obtain ⟨⟨ready, mm₁⟩, ensured, ran⟩ := bind_ok ran
    obtain ⟨memory, leaves, _, _⟩ := spaceEnsureL3_frame ensured
    dsimp only at ran
    split at ran
    · cases ran
    split at ran
    · cases ran
    rename_i absent
    have whole : (userLeaf (idxToPa idx) prot).pa = idxToPa idx := pteAddr_idxToPa (by omega)
    have unmapped : ∀ page, idx ≤ page → page < idx + (n + 1) → Unmapped mm₁.space page := by
      intro page low high index pte leaf
      rw [leaves] at leaf
      exact free page low high leaf
    have first : Fills mm (mm₁.setLeaf (pageIndex va) (userLeaf (idxToPa idx) prot)) va (0 + 1) := by
      have tables : Fills mm mm₁ va 0 := .zero leaves (fun _ _ _ => by rw [memory]) va
      refine tables.trans ?_
      rw [Nat.zero_mul, Nat.add_zero]
      exact .setLeaf (by simpa using absent) (unmapped idx (Nat.le_refl _) (by omega)) (by omega) whole
    have next : idxToPa idx + pageSize = idxToPa (idx + 1) := by
      unfold idxToPa
      ring
    rw [next] at ran
    have rest := ih (by omega) (fun page low high {index pte} leaf => by
      simp only [Mm.setLeaf, SortedMap.get?_set] at leaf
      split at leaf
      · cases leaf
        rw [Bool.eq_false_iff, whole]
        intro here
        have same := (holds_idxToPa (show idx < numPages by omega)).mp here
        omega
      · exact unmapped page (by omega) (by omega) leaf) ran
    rw [Nat.add_comm n 1]
    exact first.trans (by rw [Nat.zero_add, Nat.one_mul]; exact rest)

theorem Settled.mapped_outside {order index : Nat} (settled : Settled reserved shared outer hand mm)
    (allocated : physAllocPages mm.buddy order = .ok (pa, buddy)) (leaf : mm.space.leaves.get? index = some pte) :
    ∀ offset < pageSize, memZero mm.memory pa (2 ^ order * pageSize) (pte.pa + offset) = mm.memory (pte.pa + offset) := by
  intro offset inPage
  obtain ⟨idx, rfl, inside, fresh, _⟩ := settled.allocPages allocated
  have whole := (settled.tidy.backed leaf).2.2
  refine memZero_outside ?_
  by_contra within
  -- The page of the leaf would be one of the block, which nobody refers to.
  obtain ⟨page, low, high, same⟩ : ∃ page, idx ≤ page ∧ page < idx + 2 ^ order ∧ pte.pa = idxToPa page := by
    refine ⟨(pte.pa - idxToPa 0) / pageSize, ?_⟩
    simp only [pteAddr, idxToPa, pmmBase, pageSize] at *
    omega
  have here : holds pte.pa page = true := by
    rw [same, holds_idxToPa (by omega)]
  exact spaceRefs_pos leaf here (fresh page low high).2.2.2

theorem mapBlocks_fills (fuel : Nat) : ∀ {mm : Mm} {va remaining : Nat},
    Settled reserved shared outer hand mm → mapBlocks mm va remaining prot fuel = .ok (true, mm') →
    Fills mm mm' va remaining := by
  induction fuel with
  | zero =>
    intro mm va remaining settled ran
    rw [mapBlocks, Except.ok.injEq, Prod.mk.injEq, decide_eq_true_eq] at ran
    obtain ⟨rfl, rfl⟩ := ran
    exact .zero rfl (fun _ _ _ => rfl) va
  | succ fuel ih =>
    intro mm va remaining settled ran
    rw [mapBlocks] at ran
    split at ran
    · rename_i none
      cases ran
      rw [none]
      exact .zero rfl (fun _ _ _ => rfl) va
    · rename_i some
      have fits := largestOrderFit_le maxOrder (show 2 ^ 0 ≤ remaining by omega)
      obtain ⟨⟨pa, buddy⟩, allocated, ran⟩ := bind_ok ran
      dsimp only at ran
      generalize largestOrderFit remaining 0 maxOrder = order at *
      split at ran
      · cases ran
      · rename_i space tracked
        obtain ⟨⟨mapped, mm₁⟩, raw, ran⟩ := bind_ok ran
        cases mapped with
        | false => cases ran
        | true =>
          obtain ⟨settled₁, _⟩ := settled.mapBlock allocated tracked raw
          have cleared : Fills mm ⟨buddy, memZero mm.memory pa (2 ^ order * pageSize), space⟩ va 0 := by
            obtain ⟨_, _, rfl⟩ := spaceTrackExtent_cases tracked
            refine .zero ?_ (fun leaf => ?_) va
            · rfl
            · exact settled.mapped_outside allocated leaf
          have block : Fills ⟨buddy, memZero mm.memory pa (2 ^ order * pageSize), space⟩ mm₁ va (2 ^ order) := by
            obtain ⟨_, _, rfl⟩ := spaceTrackExtent_cases tracked
            obtain ⟨idx, rfl, inside, fresh, _⟩ := settled.allocPages allocated
            exact mapUserPagesRaw_fills _ inside
              (fun page low high _ _ leaf => Unmapped.of_refs (fresh page low high).2.2.2 leaf) raw
          have first := cleared.trans (by rw [Nat.zero_mul, Nat.add_zero]; exact block)
          rw [Nat.zero_add] at first
          have both := first.trans (ih settled₁ ran)
          rwa [Nat.add_sub_cancel' fits] at both

theorem mmuCopyUserPages_frame (n : Nat) : ∀ {mm : Mm} {src dst p : Nat},
    (∀ j < n, ∀ pte, validPte mm.space (dst + j * pageSize) = some pte → p < pte.pa ∨ pte.pa + pageSize ≤ p) →
    (mmuCopyUserPages mm src dst n).memory p = mm.memory p := by
  induction n with
  | zero => exact fun {_ _ _ _} _ => rfl
  | succ n ih =>
    intro mm src dst p outside
    have next : ∀ j, dst + pageSize + j * pageSize = dst + (j + 1) * pageSize := fun j => by ring
    have here := outside 0 (Nat.zero_lt_succ n)
    rw [Nat.zero_mul, Nat.add_zero] at here
    rw [mmuCopyUserPages]
    split
    · rename_i from' to' source target
      rw [ih fun j below pte leaf => outside (j + 1) (by omega) pte (by rw [← next]; exact leaf)]
      have apart := here to' target
      simp only [memcpy]
      rw [if_neg (by omega)]
    · exact ih fun j below pte leaf => outside (j + 1) (by omega) pte (by rw [← next]; exact leaf)

theorem mmuCopyUserPages_copied (n : Nat) : ∀ {mm : Mm} {src dst k : Nat} {source target : Pte}, k < n →
    validPte mm.space (src + k * pageSize) = some source → validPte mm.space (dst + k * pageSize) = some target →
    (∀ j < n, ∀ pte, validPte mm.space (dst + j * pageSize) = some pte →
      (j ≠ k → Separate pte.pa target.pa) ∧ Separate pte.pa source.pa) →
    ∀ offset < pageSize,
      (mmuCopyUserPages mm src dst n).memory (target.pa + offset) = mm.memory (source.pa + offset) := by
  -- Steps before the page's own leave its source alone, and steps after it leave its target alone.
  induction n with
  | zero => exact fun {_ _ _ _ _ _} below => absurd below (Nat.not_lt_zero _)
  | succ n ih =>
    intro mm src dst k source target below from' to' apart offset inside
    have next : ∀ base j, base + pageSize + j * pageSize = base + (j + 1) * pageSize := fun base j => by ring
    cases k with
    | zero =>
      rw [Nat.zero_mul, Nat.add_zero] at from' to'
      rw [mmuCopyUserPages, from', to', mmuCopyUserPages_frame]
      · simp only [memcpy]
        rw [if_pos (by omega), Nat.add_sub_cancel_left]
      · intro j later pte leaf
        have beside := (apart (j + 1) (by omega) pte (by rw [← next]; exact leaf)).1 (Nat.succ_ne_zero j)
        unfold Separate at beside
        omega
    | succ k =>
      have kept : ∀ memory, memory = mm.memory ∨ (∃ pte, validPte mm.space dst = some pte ∧
          ∃ first, memory = memcpy mm.memory pte.pa mm.memory first pageSize) →
          memory (source.pa + offset) = mm.memory (source.pa + offset) := by
        rintro memory (rfl | ⟨pte, leaf, first, rfl⟩)
        · rfl
        · have beside := (apart 0 (Nat.zero_lt_succ n) pte (by rw [Nat.zero_mul, Nat.add_zero]; exact leaf)).2
          unfold Separate at beside
          simp only [memcpy]
          rw [if_neg (by omega)]
      have rest : ∀ memory : Bytes, memory (source.pa + offset) = mm.memory (source.pa + offset) →
          (mmuCopyUserPages { mm with memory } (src + pageSize) (dst + pageSize) n).memory (target.pa + offset) =
            mm.memory (source.pa + offset) := by
        intro memory same
        refine (@ih { mm with memory } _ _ k source target (by omega) (by rw [next]; exact from')
          (by rw [next]; exact to') (fun j earlier pte leaf => ?_) offset inside).trans same
        obtain ⟨other, own⟩ := apart (j + 1) (by omega) pte (by rw [← next]; exact leaf)
        exact ⟨fun different => other (by omega), own⟩
      rw [mmuCopyUserPages]
      split
      · rename_i first pte _ leaf
        exact rest _ (kept _ (Or.inr ⟨pte, leaf, first.pa, rfl⟩))
      · exact rest mm.memory rfl

theorem Tidy.rooted (tidy : Tidy space) : Rooted space := by
  refine ⟨fun page mapped => ?_, fun index has => ?_, fun page mapped => ?_⟩
  · obtain ⟨pte, leaf⟩ := Option.isSome_iff_exists.mp mapped
    exact (tidy.backed leaf).1
  · obtain ⟨pa, table⟩ := Option.isSome_iff_exists.mp has
    exact tidy.parent table
  · obtain ⟨pte, leaf⟩ := Option.isSome_iff_exists.mp mapped
    exact (tidy.backed leaf).2.1

theorem userByte_congr (pages : validPte mm'.space va = validPte mm.space va)
    (bytes : ∀ pte, validPte mm.space va = some pte → ∀ offset < pageSize,
      mm'.memory (pte.pa + offset) = mm.memory (pte.pa + offset)) : userByte mm'.space mm'.memory va = userByte mm.space mm.memory va := by
  unfold userByte
  rw [pages]
  cases present : validPte mm.space va with
  | none => rfl
  | some pte =>
    rw [Option.map_some, Option.map_some, bytes pte present _ (Nat.mod_lt _ (by decide))]

theorem Fills.userByte (fills : Fills mm mm' start n) (tidy : Tidy mm.space) (tidy' : Tidy mm'.space) {byte : UInt8}
    (was : userByte mm.space mm.memory va = some byte) : Mmu.userByte mm'.space mm'.memory va = some byte := by
  have present : validPte mm.space va ≠ none := by
    intro absent
    simp [Mmu.userByte, absent] at was
  obtain ⟨pte, leaf⟩ := Option.ne_none_iff_exists'.mp present
  have stays : validPte mm'.space va = validPte mm.space va := by
    rw [leaf, tidy'.validPte_eq]
    exact fills.kept (by rw [← tidy.validPte_eq]; exact leaf)
  rw [← was]
  refine userByte_congr stays fun pte' present' => ?_
  rw [tidy.validPte_eq] at present'
  exact fills.bytes present'

theorem unmapPages_leaves (n : Nat) : ∀ {mm : Mm} {va : Nat}, Rooted mm.space → unmapPages mm va n = .ok mm' →
    mm'.memory = mm.memory ∧ mm'.space.l2Tables = mm.space.l2Tables ∧ mm'.space.l3Tables = mm.space.l3Tables ∧
      mm'.space.extents = mm.space.extents ∧
      (∀ index, (∀ i < n, index ≠ pageIndex (va + i * pageSize)) →
        mm'.space.leaves.get? index = mm.space.leaves.get? index) := by
  induction n with
  | zero =>
    intro mm va _ ran
    cases ran
    exact ⟨rfl, rfl, rfl, rfl, fun _ _ => rfl⟩
  | succ n ih =>
    intro mm va rooted ran
    have next : ∀ i, va + pageSize + i * pageSize = va + (i + 1) * pageSize := fun i => by ring
    rw [unmapPages] at ran
    split at ran
    · obtain ⟨memory, upper, lower, extents, leaves⟩ := ih rooted ran
      exact ⟨memory, upper, lower, extents, fun index outside => leaves index fun i below => by
        rw [next]
        exact outside (i + 1) (by omega)⟩
    · obtain ⟨freed, _, ran⟩ := bind_ok ran
      have rooted₁ : Rooted (mm.clearLeaf (pageIndex va)).space := rooted.congr rfl rfl fun page mapped => by
        simp only [Mm.clearLeaf, Space.maps, SortedMap.get?_erase] at mapped
        split at mapped
        · cases mapped
        · exact mapped
      obtain ⟨memory, upper, lower, extents, leaves⟩ :=
        @ih { mm.clearLeaf (pageIndex va) with buddy := freed } _ rooted₁ ran
      refine ⟨memory, upper, lower, extents, fun index outside => ?_⟩
      rw [leaves index fun i below => by rw [next]; exact outside (i + 1) (by omega)]
      have apart := outside 0 (Nat.zero_lt_succ n)
      rw [Nat.zero_mul, Nat.add_zero] at apart
      simp only [Mm.clearLeaf, SortedMap.get?_erase]
      rw [if_neg apart]

theorem mmuUnmapUserRegion_bytes (settled : Settled reserved shared outer hand mm)
    (ran : mmuUnmapUserRegion mm start size = .ok (done, mm')) (low : va < mmuUserLimit)
    (outside : ¬ Struck start size va) : userByte mm'.space mm'.memory va = userByte mm.space mm.memory va := by
  have settled' := (Settled.mmuUnmapUserRegion settled ran).1
  unfold mmuUnmapUserRegion at ran
  split at ran
  · cases ran
    rfl
  · rename_i accepted
    simp only [Bool.not_eq_true', Bool.not_eq_false] at accepted
    obtain ⟨_, aligned, sized, _, limit⟩ := inWindow_iff.mp accepted
    obtain ⟨mm₁, unmapped, ran⟩ := bind_ok ran
    cases ran
    obtain ⟨memory, _, _, _, leaves⟩ := unmapPages_leaves _ settled.tidy.rooted unmapped
    refine userByte_congr ?_ fun _ _ _ _ => by rw [memory]
    rw [settled'.tidy.validPte_eq, settled.tidy.validPte_eq]
    refine leaves _ fun i below same => outside ⟨accepted, ?_⟩
    -- Both addresses are below the limit, so their pages have different numbers.
    simp only [pageIndex, mmuUserLimit, pageSize] at *
    omega

theorem mmuCopyUserPages_buddy (n : Nat) : ∀ {mm : Mm} {src dst : Nat}, (mmuCopyUserPages mm src dst n).buddy = mm.buddy := by
  induction n with
  | zero => exact fun {_ _ _} => rfl
  | succ n ih =>
    intro mm src dst
    rw [mmuCopyUserPages, ih]
    split <;> rfl

theorem separate_of_ne {pa' : Nat} (whole : pa % pageSize = 0) (whole' : pa' % pageSize = 0) (different : pa ≠ pa') :
    Separate pa pa' := by
  unfold Separate pageSize at *
  omega

theorem moveRegion_bytes {oldAddr newAddr oldAligned i : Nat} {result : Except RemapErrno Nat} {byte : UInt8}
    (settled : Settled reserved shared outer hand mm) (settled₂ : Settled reserved shared outer hand mm₂)
    (fills : Fills mm mm₂ newAddr n) (newLow : newAddr + n * pageSize ≤ mmuUserLimit) (newWhole : newAddr % pageSize = 0)
    (oldWhole : oldAddr % pageSize = 0) (sized : oldAligned / pageSize ≤ n) (inside : i < oldAligned / pageSize * pageSize)
    (was : userByte mm.space mm.memory (oldAddr + i) = some byte) (stays : ¬ Struck oldAddr oldAligned (newAddr + i))
    (ran : moveRegion mm₂ oldAddr newAddr oldAligned = .ok (result, mm')) :
    result = .ok newAddr ∧ userByte mm'.space mm'.memory (newAddr + i) = some byte := by
  unfold moveRegion at ran
  obtain ⟨⟨_, mm₃⟩, unmapped, ran⟩ := bind_ok ran
  cases ran
  refine ⟨rfl, ?_⟩
  have copiedSpace := @mmuCopyUserPages_space (oldAligned / pageSize) mm₂ oldAddr newAddr
  -- The byte is in a page of the old range, which has its own place in the new one.
  obtain ⟨k, offset, below, inPage, rfl⟩ : ∃ k offset, k < oldAligned / pageSize ∧ offset < pageSize ∧
      i = k * pageSize + offset := by
    refine ⟨i / pageSize, i % pageSize, ?_, Nat.mod_lt _ (by decide), ?_⟩ <;>
    · unfold pageSize at *
      omega
  have low : newAddr + (k * pageSize + offset) < mmuUserLimit := by
    unfold pageSize at *
    omega
  have settled₃ : Settled reserved shared outer hand (mmuCopyUserPages mm₂ oldAddr newAddr (oldAligned / pageSize)) := by
    refine ⟨?_, ?_, ?_⟩ <;> rw [copiedSpace]
    · rw [mmuCopyUserPages_buddy]
      exact settled₂.ledger
    · exact settled₂.tidy
    · exact settled₂.sole
  rw [mmuUnmapUserRegion_bytes settled₃ unmapped low stays]
  -- The page at its old place, and the fresh one at its new place.
  have oldPage : validPte mm.space (oldAddr + (k * pageSize + offset)) = validPte mm.space (oldAddr + k * pageSize) :=
    validPte_samePage (by unfold pageSize at *; omega)
  have newPage : validPte mm₂.space (newAddr + (k * pageSize + offset)) = validPte mm₂.space (newAddr + k * pageSize) :=
    validPte_samePage (by unfold pageSize at *; omega)
  have oldOffset : (oldAddr + (k * pageSize + offset)) % pageSize = offset := by unfold pageSize at *; omega
  have newOffset : (newAddr + (k * pageSize + offset)) % pageSize = offset := by unfold pageSize at *; omega
  obtain ⟨page, target, targetLeaf, targetWhole, targetInside, alone⟩ := fills.fresh k (by omega)
  unfold userByte at was ⊢
  rw [oldPage, oldOffset] at was
  cases leaf : validPte mm.space (oldAddr + k * pageSize) with
  | none => simp [leaf] at was
  | some source =>
    rw [leaf, Option.map_some, Option.some.injEq] at was
    rw [settled.tidy.validPte_eq] at leaf
    have sourceKept := fills.kept leaf
    have sourceWhole := (settled₂.tidy.backed sourceKept).2.2
    have sourceLeaf : validPte mm₂.space (oldAddr + k * pageSize) = some source := by
      rw [settled₂.tidy.validPte_eq]
      exact sourceKept
    have targetHere : validPte mm₂.space (newAddr + k * pageSize) = some target := by
      rw [settled₂.tidy.validPte_eq]
      exact targetLeaf
    rw [copiedSpace, newPage, targetHere, Option.map_some, newOffset, Option.some.injEq, ← was]
    rw [mmuCopyUserPages_copied _ below sourceLeaf targetHere ?_ offset inPage]
    · exact fills.bytes leaf offset inPage
    · intro j earlier pte present
      obtain ⟨other, pte', otherLeaf, otherWhole, otherInside, otherAlone⟩ := fills.fresh j (by omega)
      rw [settled₂.tidy.validPte_eq, otherLeaf] at present
      cases present
      have aligned : ∀ page, idxToPa page % pageSize = 0 := fun page => by
        unfold idxToPa pmmBase pageSize
        omega
      refine ⟨fun different => ?_, ?_⟩
      · rw [otherWhole, targetWhole]
        refine separate_of_ne (aligned _) (aligned _) fun same => different ?_
        -- Two leaves over one page would be the same leaf, and the range does not wrap around.
        have here : holds pte.pa page = true := by
          rw [otherWhole, same, holds_idxToPa targetInside]
        have index := alone otherLeaf here
        unfold pageIndex mmuUserLimit pageSize at *
        omega
      · rw [otherWhole]
        refine separate_of_ne (aligned _) (by unfold pteAddr pageSize at *; omega) fun same => ?_
        have here : holds source.pa other = true := by
          rw [← same, holds_idxToPa otherInside]
        have vacant := fills.vacant j (by omega)
        rw [← otherAlone sourceKept here, leaf] at vacant
        cases vacant

end

end Enlil.Mmu
