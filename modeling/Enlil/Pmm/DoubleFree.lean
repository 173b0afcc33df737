import Enlil.Pmm.BuddyRuns

/-! When freeing a page that is already free does no harm. -/

namespace Enlil.Pmm

open AlignedBlock

/-- A free of an address that comes back and changes neither the lists nor the page counter. -/
def Harmless (s : Buddy) (pa : Nat) : Prop :=
  ∃ s', physFreePage s pa = .ok s' ∧ s'.buddySent = s.buddySent ∧
    s'.totalFreePages = s.totalFreePages

theorem pagesOf_succ (order : Nat) : pagesOf (order + 1) = pagesOf order + pagesOf order := by
  simp only [pagesOf, Nat.one_shiftLeft, ← UInt32.ofNat_add, Nat.pow_succ]
  congr 1
  omega

theorem coalesce_pages (fuel : Nat) : ∀ {s s' : Buddy} {idx order idx' order' : Nat},
    coalesce s idx order fuel = .ok (s', idx', order') →
      s'.totalFreePages + pagesOf order' = s.totalFreePages + pagesOf order := by
  -- The tags decide how far the loop goes, but the count is kept whatever they say.
  induction fuel with
  | zero =>
    intro s s' idx order idx' order' merged
    simp only [coalesce, Except.ok.injEq, Prod.mk.injEq] at merged
    obtain ⟨rfl, rfl, rfl⟩ := merged
    rfl
  | succ fuel ih =>
    intro s s' idx order idx' order' merged
    simp only [coalesce] at merged
    split at merged
    · obtain ⟨s₁, removed, rest⟩ := bind_ok merged
      obtain ⟨s₂, unlinked, taken⟩ := bind_ok removed
      have lists : s₂.totalFreePages = s.totalFreePages := by
        unfold listRemove at unlinked
        split at unlinked <;> cases unlinked
        rfl
      cases taken
      have pages := ih rest
      simp only [lists, pagesOf_succ] at pages
      rw [pages, ← UInt32.add_assoc, UInt32.sub_add_cancel]
    · simp only [Except.ok.injEq, Prod.mk.injEq] at merged
      obtain ⟨rfl, rfl, rfl⟩ := merged
      rfl

theorem physFreePage_counts {s s' : Buddy} {pa : Nat} (managed : unmanaged pa = false)
    (touchable : (s.pageState (pageOf pa)).untouchable = false) (last : ¬ s.pageRefs (pageOf pa) > 1)
    (freed : physFreePage s pa = .ok s') : s'.totalFreePages = s.totalFreePages + 1 := by
  rw [physFreePage, if_neg (by simp [managed])] at freed
  dsimp only at freed
  rw [if_neg (by simp [touchable]), if_neg last] at freed
  obtain ⟨⟨s₁, idx, order⟩, merged, rest⟩ := bind_ok freed
  have pages := coalesce_pages _ merged
  cases rest
  simpa [buddyAddBlock, pagesOf] using pages

theorem harmless_iff {s : Buddy} {pa : Nat} (managed : unmanaged pa = false) :
    Harmless s pa ↔
      (s.pageState (pageOf pa)).untouchable = true ∨ s.pageRefs (pageOf pa) > 1 := by
  constructor
  · rintro ⟨s', freed, _, total⟩
    by_contra neither
    obtain ⟨touchable, last⟩ := not_or.mp neither
    have counted := physFreePage_counts managed (by simpa using touchable) last freed
    rw [total] at counted
    simp at counted
  · intro stopped
    by_cases untouchable : (s.pageState (pageOf pa)).untouchable = true
    · refine ⟨s, ?_, rfl, rfl⟩
      rw [physFreePage, if_neg (by simp [managed])]
      dsimp only
      rw [if_pos untouchable]
    · have shared := stopped.resolve_left untouchable
      refine ⟨{ s with pageRefs := Function.update s.pageRefs (pageOf pa) (s.pageRefs (pageOf pa) - 1) },
        ?_, rfl, rfl⟩
      rw [physFreePage, if_neg (by simp [managed])]
      dsimp only
      rw [if_neg untouchable, if_pos shared]

/--
In every reachable state, a second free of a page of a free block does no harm exactly when its tag or its counter still stops it.

The tag of a page that was merged into a larger block is left over from its last allocation.
-/
theorem double_free_harmless_iff {reserved : Nat → Bool} {blocks : List (Nat × Nat)} {t : Session}
    (_run : Run Session.exec Given (boot reserved blocks) t) {order idx pa : Nat}
    (_free : t.buddy.FreeBlock order idx) (managed : unmanaged pa = false)
    (_inside : Covers idx order (pageOf pa)) :
    Harmless t.buddy pa ↔
      t.buddy.pageState (pageOf pa) = .free ∨ t.buddy.pageState (pageOf pa) = .reserved ∨
        t.buddy.pageRefs (pageOf pa) > 1 := by
  rw [harmless_iff managed]
  simp only [PageState.untouchable, Bool.or_eq_true, decide_eq_true_eq]
  tauto

/-- Two neighbouring pages of the sample session allocated and freed again, so that they merge. -/
def mergedPair : Session :=
  ((onePage.after .allocPage).after (.freePage (idxToPa 130048))).after (.freePage (idxToPa 130049))

/-- Both frees come back, and the merge leaves the tag of the upper page as it was. -/
theorem mergedPair_facts : onePage.returns .allocPage = true ∧
    (onePage.after .allocPage).own (pageOf (idxToPa 130048)) = .client 1 ∧
    (onePage.after .allocPage).returns (.freePage (idxToPa 130048)) = true ∧
    ((onePage.after .allocPage).after (.freePage (idxToPa 130048))).own (pageOf (idxToPa 130049)) = .client 1 ∧
    ((onePage.after .allocPage).after (.freePage (idxToPa 130048))).returns (.freePage (idxToPa 130049)) = true ∧
    130048 ∈ mergedPair.buddy.buddySent 10 ∧ mergedPair.buddy.pageState (pageOf (idxToPa 130048)) = .free ∧
    (mergedPair.buddy.pageState (pageOf (idxToPa 130049))).untouchable = false ∧
    ¬ mergedPair.buddy.pageRefs (pageOf (idxToPa 130049)) > 1 := by
  decide +kernel

theorem mergedPair_run : Run Session.exec Given (boot kernelReserved largestBlocks) mergedPair := by
  obtain ⟨allocated, lower, lowerFreed, upper, upperFreed, _⟩ := mergedPair_facts
  have first : Run Session.exec Given (boot kernelReserved largestBlocks) onePage :=
    .call .allocPage .start trivial onePage_returns
  have second : Run Session.exec Given (boot kernelReserved largestBlocks) (onePage.after .allocPage) :=
    .call .allocPage first trivial (Session.exec_after allocated)
  have third := Run.call (BuddyOp.freePage (idxToPa 130048)) second ⟨by decide, 1, lower⟩ (Session.exec_after lowerFreed)
  exact .call (.freePage (idxToPa 130049)) third ⟨by decide, 1, upper⟩ (Session.exec_after upperFreed)

theorem mergedPair_free : mergedPair.buddy.FreeBlock 10 130048 :=
  mergedPair_facts.2.2.2.2.2.1

/-- Freeing the first page of the merged pair once more does no harm. -/
theorem double_free_harmless_iff_mergedPair : Harmless mergedPair.buddy (idxToPa 130048) :=
  (double_free_harmless_iff mergedPair_run mergedPair_free (by decide) (by decide)).mpr
    (Or.inl mergedPair_facts.2.2.2.2.2.2.1)

/-- The upper page of the merged pair lies in a free block, and freeing it once more does harm. -/
theorem double_free_of_merged_page_harms :
    ¬ ∀ (reserved : Nat → Bool) (blocks : List (Nat × Nat)), Tiles reserved blocks →
      ∀ t, Run Session.exec Given (boot reserved blocks) t → ∀ order idx pa,
        t.buddy.FreeBlock order idx → unmanaged pa = false → Covers idx order (pageOf pa) →
        Harmless t.buddy pa := by
  intro harmless
  have freed := harmless _ _ largestBlocks_tiles mergedPair mergedPair_run 10 130048 (idxToPa 130049)
    mergedPair_free (by decide) (by decide)
  obtain ⟨_, _, _, _, _, _, _, touchable, last⟩ := mergedPair_facts
  rcases (harmless_iff (by decide)).mp freed with tag | refs
  · simp [touchable] at tag
  · exact last refs

end Enlil.Pmm
