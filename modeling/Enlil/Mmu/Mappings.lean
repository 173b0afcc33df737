import Enlil.Mmu.Accounts

/-! How the mapping calls move references between the allocator, a call's hand and the leaves of a space. -/

namespace Enlil.Mmu

open Pmm

section

variable {reserved : Nat → Bool} {shared : Nat → Prop} {outer hand : Nat → Nat} {mm mm' : Mm} {space : Space}
  {va pa page : Nat} {pte : Pte} {found : Bool} {buddy : Buddy} {prot : Prot}

theorem spaceRefs_setLeaf {index : Nat} (absent : space.leaves.get? index = none) (pte : Pte) (page : Nat) :
    spaceRefs { space with leaves := space.leaves.set index pte } page = spaceRefs space page + refOf pte.pa page := by
  simp only [spaceRefs, leafRefs, tableRefs, SortedMap.count_set_new _ _ absent, refOf_eq]
  omega

theorem spaceRefs_clearLeaf {index : Nat} (present : space.leaves.get? index = some pte) (page : Nat) :
    spaceRefs { space with leaves := space.leaves.erase index } page + refOf pte.pa page = spaceRefs space page := by
  have counted := SortedMap.count_erase (fun pte => holds pte.pa page) present
  simp only [spaceRefs, leafRefs, tableRefs, refOf_eq]
  omega

theorem spaceRefs_pos {index : Nat} (present : space.leaves.get? index = some pte) (here : holds pte.pa page = true) :
    spaceRefs space page ≠ 0 := by
  have counted : 0 < space.leaves.count fun pte => holds pte.pa page := SortedMap.count_pos present here
  unfold spaceRefs leafRefs
  omega

theorem Settled.putLeaf (settled : Settled reserved shared outer (fun page => hand page + refOf pte.pa page) mm)
    (absent : mm.space.leaves.get? (pageIndex va) = none)
    (table : (mm.space.l3Tables.get? (l3Index va)).isSome) (whole : pteAddr pte.pa = pte.pa)
    (alone : pte.writable = true → ∀ page, holds pte.pa page = true → Private reserved shared page → outer page = 0) :
    Settled reserved shared outer hand (mm.setLeaf (pageIndex va) pte) := by
  refine ⟨settled.ledger.congr fun page _ => ?_, ⟨settled.tidy.tables, settled.tidy.parent, ?_⟩, ?_⟩
  · simp only [Mm.setLeaf, spaceRefs_setLeaf absent]
    omega
  · intro index other leaf
    simp only [Mm.setLeaf, SortedMap.get?_set] at leaf ⊢
    split at leaf
    · rename_i same
      cases leaf
      rw [same, pageIndex_div]
      exact ⟨pageIndex_lt va, table, whole⟩
    · exact settled.tidy.backed leaf
  · intro index other page leaf writable here own
    simp only [Mm.setLeaf, SortedMap.get?_set] at leaf
    split at leaf
    · cases leaf
      exact alone writable page here own
    · exact settled.sole leaf writable here own

theorem Settled.setLeaf (settled : Settled reserved shared outer (fun page => hand page + refOf pte.pa page) mm)
    (absent : mm.space.leaves.get? (pageIndex va) = none)
    (table : (mm.space.l3Tables.get? (l3Index va)).isSome) (whole : pteAddr pte.pa = pte.pa)
    (alone : pte.writable = true → ∀ page, holds pte.pa page = true → Private reserved shared page → outer page = 0)
    (known : ∀ page, holds pte.pa page = true → Private reserved shared page → outer page ≠ 0 →
      spaceRefs mm.space page ≠ 0) :
    Settled reserved shared outer hand (mm.setLeaf (pageIndex va) pte) ∧
      Apart reserved shared outer mm (mm.setLeaf (pageIndex va) pte) := by
  refine ⟨settled.putLeaf absent table whole alone, fun _ _ _ _ _ => rfl, fun page own some here => ?_⟩
  by_cases mine : holds pte.pa page = true
  · exact known page mine own some
  · simpa [Mm.setLeaf, spaceRefs_setLeaf absent, refOf_eq, mine] using here

theorem Settled.clearLeaf {index : Nat} (settled : Settled reserved shared outer hand mm)
    (present : mm.space.leaves.get? index = some pte) :
    Settled reserved shared outer (fun page => hand page + refOf pte.pa page) (mm.clearLeaf index) ∧
      Apart reserved shared outer mm (mm.clearLeaf index) := by
  refine ⟨⟨settled.ledger.congr fun page _ => ?_, ⟨settled.tidy.tables, settled.tidy.parent, ?_⟩, ?_⟩,
    fun _ _ _ _ _ => rfl, fun page own some here => ?_⟩
  · have cleared := spaceRefs_clearLeaf present page
    simp only [Mm.clearLeaf]
    omega
  · intro index' other leaf
    simp only [Mm.clearLeaf, SortedMap.get?_erase] at leaf ⊢
    split at leaf
    · cases leaf
    · exact settled.tidy.backed leaf
  · intro index' other page leaf writable here own
    simp only [Mm.clearLeaf, SortedMap.get?_erase] at leaf
    split at leaf
    · cases leaf
    · exact settled.sole leaf writable here own
  · have cleared := spaceRefs_clearLeaf present page
    simp only [Mm.clearLeaf] at here
    omega

theorem Settled.rebook {hand' : Nat → Nat} (settled : Settled reserved shared outer hand mm)
    (ledger : Ledger reserved (fun page => outer page + hand' page + spaceRefs mm.space page) buddy) :
    Settled reserved shared outer hand' { mm with buddy } :=
  ⟨ledger, settled.tidy, settled.sole⟩

theorem Settled.freeHand {freed : Buddy}
    (settled : Settled reserved shared outer (fun page => hand page + refOf pa page) mm)
    (ran : physFreePage mm.buddy pa = .ok freed) : Settled reserved shared outer hand { mm with buddy := freed } := by
  have ledger : Ledger reserved (fun page => outer page + hand page + spaceRefs mm.space page + refOf pa page)
      mm.buddy := settled.ledger.congr fun page _ => by omega
  exact settled.rebook (ledger.freed ran)

theorem Settled.retainHand (settled : Settled reserved shared outer hand mm)
    (out : ∀ page, holds pa page = true → Pooled reserved page →
      outer page + hand page + spaceRefs mm.space page ≠ 0 ∧
        outer page + hand page + spaceRefs mm.space page < 65535) :
    Settled reserved shared outer (fun page => hand page + refOf pa page)
      { mm with buddy := physRetainPage mm.buddy pa } := by
  have retained := @Ledger.retain _ _ _ pa settled.ledger fun managed pooled => out _ (by simp [holds, managed]) pooled
  exact settled.rebook (retained.congr fun page _ => by omega)

theorem refsOf_succ (pa n page : Nat) : refsOf pa (n + 1) page = refOf pa page + refsOf (pa + pageSize) n page := rfl

theorem Apart.of_memory {memory : Bytes} (same : ∀ page, Private reserved shared page → outer page ≠ 0 →
    ∀ offset < pageSize, memory (idxToPa page + offset) = mm.memory (idxToPa page + offset)) :
    Apart reserved shared outer mm { mm with buddy, memory } :=
  ⟨same, fun _ _ _ some => some⟩

theorem Settled.mapUserPagesRaw (n : Nat) : ∀ {mm : Mm} {idx va : Nat},
    Settled reserved shared outer (fun page => hand page + refsOf (idxToPa idx) n page) mm → idx + n ≤ numPages →
    (∀ page, idx ≤ page → page < idx + n → Private reserved shared page → outer page = 0) →
    mapUserPagesRaw mm va (idxToPa idx) prot n = .ok (found, mm') →
    Apart reserved shared outer mm mm' ∧
      (∀ {index pte}, mm'.space.leaves.get? index = some pte → pte.writable = true →
        prot.write = true ∨ mm.space.leaves.get? index = some pte) ∧
      ∃ k ≤ n, (found = true ↔ k = n) ∧
        Settled reserved shared outer (fun page => hand page + refsOf (idxToPa (idx + k)) (n - k) page) mm' := by
  -- Each page that is mapped takes its reference out of the hand.
  induction n with
  | zero =>
    intro mm idx va settled _ _ ran
    cases ran
    exact ⟨.refl _, fun leaf _ => Or.inr leaf, 0, Nat.le_refl _, by simp, settled⟩
  | succ n ih =>
    intro mm idx va settled inside fresh ran
    rw [Mmu.mapUserPagesRaw] at ran
    obtain ⟨⟨ready, mm₁⟩, ensured, ran⟩ := bind_ok ran
    obtain ⟨settled₁, apart₁, _, table⟩ := settled.ensureL3 ensured
    obtain ⟨_, leaves₁, _, _⟩ := spaceEnsureL3_frame ensured
    dsimp only at ran
    cases ready with
    | false =>
      cases ran
      exact ⟨apart₁, fun leaf _ => Or.inr (by rw [← leaves₁]; exact leaf), 0, by omega, by simp, settled₁⟩
    | true =>
      simp only [Bool.not_true, Bool.false_eq_true, if_false] at ran
      split at ran
      · cases ran
        exact ⟨apart₁, fun leaf _ => Or.inr (by rw [← leaves₁]; exact leaf), 0, by omega, by simp, settled₁⟩
      · rename_i absent
        have next : idxToPa idx + pageSize = idxToPa (idx + 1) := by
          unfold idxToPa
          ring
        have whole := pteAddr_idxToPa (show idx < numPages by omega)
        have first : ∀ page, holds (idxToPa idx) page = true → page = idx := fun page here => by
          have := (holds_pteAddr whole).mp here
          simp only [idxToPa, pageSize] at this
          omega
        have zero : ∀ page, holds (idxToPa idx) page = true → Private reserved shared page → outer page = 0 :=
          fun page here own => fresh page (by rw [first page here]) (by rw [first page here]; omega) own
        have handed : Settled reserved shared outer
            (fun page => hand page + refsOf (idxToPa (idx + 1)) n page + refOf (userLeaf (idxToPa idx) prot).pa page)
            mm₁ := by
          have same : (userLeaf (idxToPa idx) prot).pa = idxToPa idx := whole
          rw [same]
          refine settled₁.rebook (settled₁.ledger.congr fun page _ => ?_)
          simp only [refsOf_succ, next]
          omega
        obtain ⟨settled₂, apart₂⟩ := @Settled.setLeaf _ _ _ _ _ va _ handed (by simpa using absent) (table rfl)
          (by simp [userLeaf])
          (fun _ page here own => zero page (by simpa [userLeaf, whole] using here) own)
          fun page here own some => absurd (zero page (by simpa [userLeaf, whole] using here) own) some
        rw [next] at ran
        obtain ⟨apart, written, k, bound, all, settled'⟩ := ih settled₂ (by omega)
          (fun page low high own => fresh page (by omega) (by omega) own) ran
        refine ⟨(apart₁.trans apart₂).trans apart, fun {index pte} leaf writable => ?_, k + 1, by omega,
          by rw [all]; omega, ?_⟩
        · rcases written leaf writable with write | before
          · exact Or.inl write
          · simp only [Mm.setLeaf, SortedMap.get?_set] at before
            split at before
            · cases before
              exact Or.inl writable
            · exact Or.inr (by rw [← leaves₁]; exact before)
        rw [show idx + (k + 1) = idx + 1 + k by omega, show n + 1 - (k + 1) = n - k by omega]
        exact settled'

theorem Settled.allocPages {order : Nat} (settled : Settled reserved shared outer hand mm)
    (ran : physAllocPages mm.buddy order = .ok (pa, buddy)) :
    ∃ idx, pa = idxToPa idx ∧ idx + 2 ^ order ≤ numPages ∧
      (∀ page, idx ≤ page → page < idx + 2 ^ order →
        Pooled reserved page ∧ outer page = 0 ∧ hand page = 0 ∧ spaceRefs mm.space page = 0) ∧
      ∀ memory, Settled reserved shared outer (fun page => hand page + refsOf (idxToPa idx) (2 ^ order) page)
        { mm with buddy, memory } := by
  obtain ⟨⟨idx, rfl, inside⟩, unheld, ledger⟩ := settled.ledger.allocPages ran
  refine ⟨idx, rfl, inside, fun page low high => ?_, fun memory => ⟨ledger.congr fun page _ => ?_, settled.tidy,
    settled.sole⟩⟩
  · obtain ⟨pooled, zero⟩ := unheld page (by rw [refsOf_eq _ inside, if_pos ⟨low, high⟩]; omega)
    exact ⟨pooled, by omega, by omega, by omega⟩
  · dsimp only
    omega

theorem spaceTrackExtent_cases {extent : Extent} {space' : Space}
    (tracked : spaceTrackExtent space extent = some space') :
    extent.pages ≠ 0 ∧ space.extents.length < mmuMaxSpaceExtents ∧
      space' = { space with extents := space.extents.rdropWhile (fun other => extent.va < other.va) ++
        extent :: space.extents.rtakeWhile (fun other => extent.va < other.va) } := by
  unfold spaceTrackExtent at tracked
  split at tracked
  · cases tracked
  · rename_i fits
    cases tracked
    exact ⟨by omega, by omega, rfl⟩

theorem Settled.retrack (settled : Settled reserved shared outer hand mm) (extents : List Extent) (mmapBase : Nat) :
    Settled reserved shared outer hand { mm with space := { mm.space with extents, mmapBase } } ∧
      Apart reserved shared outer mm { mm with space := { mm.space with extents, mmapBase } } :=
  ⟨⟨settled.ledger, ⟨settled.tidy.tables, settled.tidy.parent, settled.tidy.backed⟩, settled.sole⟩,
    fun _ _ _ _ _ => rfl, fun _ _ _ some => some⟩

theorem memZero_outside {memory : Bytes} {start size p : Nat} (outside : p < start ∨ start + size ≤ p) :
    memZero memory start size p = memory p := by
  rw [memZero, if_neg (by omega)]

theorem Settled.mapBlock {order : Nat} (settled : Settled reserved shared outer hand mm)
    (allocated : physAllocPages mm.buddy order = .ok (pa, buddy))
    (tracked : spaceTrackExtent mm.space ⟨va, pa, 2 ^ order, order⟩ = some space)
    (raw : Mmu.mapUserPagesRaw ⟨buddy, memZero mm.memory pa (2 ^ order * pageSize), space⟩ va pa prot (2 ^ order) =
      .ok (true, mm')) :
    Settled reserved shared outer hand mm' ∧ Apart reserved shared outer mm mm' := by
  obtain ⟨idx, rfl, inside, fresh, handed⟩ := settled.allocPages allocated
  obtain ⟨_, _, rfl⟩ := spaceTrackExtent_cases tracked
  have zeroed : Apart reserved shared outer mm
      { mm with buddy, memory := memZero mm.memory (idxToPa idx) (2 ^ order * pageSize) } := by
    refine Apart.of_memory fun page own some offset inPage => memZero_outside ?_
    -- The block is made of pages that nobody referred to.
    have apart : ¬ (idx ≤ page ∧ page < idx + 2 ^ order) := fun ⟨low, high⟩ => some (fresh page low high).2.1
    simp only [idxToPa, pageSize] at inPage ⊢
    omega
  obtain ⟨tracked', apartTrack⟩ := (handed (memZero mm.memory (idxToPa idx) (2 ^ order * pageSize))).retrack
    (mm.space.extents.rdropWhile (fun other => va < other.va) ++
      ⟨va, idxToPa idx, 2 ^ order, order⟩ :: mm.space.extents.rtakeWhile (fun other => va < other.va))
    mm.space.mmapBase
  obtain ⟨apartRaw, _, k, bound, all, settled₁⟩ := Settled.mapUserPagesRaw (2 ^ order) tracked' inside
    (fun page low high _ => (fresh page low high).2.1) raw
  obtain rfl : k = 2 ^ order := all.mp rfl
  have done : Settled reserved shared outer hand mm' :=
    settled₁.rebook (settled₁.ledger.congr fun page _ => by simp only [Nat.sub_self, refsOf]; omega)
  exact ⟨done, (zeroed.trans apartTrack).trans apartRaw⟩

theorem Settled.mapBlocks (fuel : Nat) : ∀ {mm : Mm} {va remaining : Nat},
    Settled reserved shared outer hand mm → mapBlocks mm va remaining prot fuel = .ok (true, mm') →
    Settled reserved shared outer hand mm' ∧ Apart reserved shared outer mm mm' := by
  induction fuel with
  | zero =>
    intro mm va remaining settled ran
    rw [Mmu.mapBlocks, Except.ok.injEq, Prod.mk.injEq] at ran
    obtain ⟨_, rfl⟩ := ran
    exact ⟨settled, .refl _⟩
  | succ fuel ih =>
    intro mm va remaining settled ran
    rw [Mmu.mapBlocks] at ran
    split at ran
    · cases ran
      exact ⟨settled, .refl _⟩
    · obtain ⟨⟨pa, buddy⟩, allocated, ran⟩ := bind_ok ran
      dsimp only at ran
      split at ran
      · cases ran
      · rename_i space tracked
        obtain ⟨⟨mapped, mm₁⟩, raw, ran⟩ := bind_ok ran
        cases mapped with
        | false => cases ran
        | true =>
          obtain ⟨settled₁, apart₁⟩ := settled.mapBlock allocated tracked raw
          obtain ⟨settled', apart'⟩ := ih settled₁ ran
          exact ⟨settled', apart₁.trans apart'⟩

theorem Settled.mmuMapUserRegion {start size : Nat} (settled : Settled reserved shared outer hand mm)
    (ran : mmuMapUserRegion mm start size prot = .ok (found, mm'))
    (mapped : inWindow start size = true → found = true) :
    Settled reserved shared outer hand mm' ∧ Apart reserved shared outer mm mm' := by
  unfold Mmu.mmuMapUserRegion at ran
  split at ran
  · cases ran
    exact ⟨settled, .refl _⟩
  · rename_i window
    obtain rfl := mapped (by simpa using window)
    exact settled.mapBlocks _ ran

end

end Enlil.Mmu
