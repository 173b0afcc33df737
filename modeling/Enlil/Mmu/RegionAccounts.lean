import Enlil.Mmu.Fits

/-! Aliases, given pages and unmapped regions keep the references counted. -/

namespace Enlil.Mmu

open Pmm

section

variable {reserved : Nat → Bool} {shared : Nat → Prop} {outer hand : Nat → Nat} {mm mm' : Mm} {space : Space}
  {va pa page : Nat} {pte : Pte} {found : Bool} {buddy : Buddy} {prot : Prot}

/-- The page of an address may be mapped a number of times more in this space, for writes if they are asked for. -/
def MayMap (reserved : Nat → Bool) (shared : Nat → Prop) (outer : Nat → Nat) (space : Space) (pa count : Nat)
    (write : Bool) : Prop :=
  ∀ page, holds pa page = true →
    (Pooled reserved page → outer page + spaceRefs space page + count ≤ 65535) ∧
      (write = true → Private reserved shared page → outer page = 0)

theorem Settled.aliasPages (n : Nat) : ∀ {mm : Mm} {dst src : Nat},
    Settled reserved shared outer (fun _ => 0) mm →
    (∀ i < n, ∀ pte, validPte mm.space (src + i * pageSize) = some pte →
      MayMap reserved shared outer mm.space pte.pa n prot.write) →
    aliasPages mm dst src prot n = .ok (found, mm') →
    Settled reserved shared outer (fun _ => 0) mm' ∧ Apart reserved shared outer mm mm' := by
  induction n with
  | zero =>
    intro mm dst src settled _ ran
    cases ran
    exact ⟨settled, .refl _⟩
  | succ n ih =>
    intro mm dst src settled may ran
    rw [Mmu.aliasPages] at ran
    split at ran
    · cases ran
      exact ⟨settled, .refl _⟩
    · rename_i pte source
      obtain ⟨⟨ready, mm₁⟩, ensured, ran⟩ := bind_ok ran
      obtain ⟨settled₁, apart₁, refs₁, table⟩ := settled.ensureL3 ensured
      obtain ⟨_, leaves₁, _, _⟩ := spaceEnsureL3_frame ensured
      dsimp only at ran
      cases ready with
      | false =>
        cases ran
        exact ⟨settled₁, apart₁⟩
      | true =>
        simp only [Bool.not_true, Bool.false_eq_true, if_false] at ran
        rw [settled.tidy.validPte_eq] at source
        -- The sources that remain are leaves of the space as it was, or the one just mapped again.
        have rest : ∀ (mm₂ : Mm), Tidy mm₂.space →
            (∀ index pte', mm₂.space.leaves.get? index = some pte' → pte'.pa = pte.pa ∨ mm.space.leaves.get? index = some pte') →
            (∀ page, spaceRefs mm.space page ≠ 0 → spaceRefs mm₂.space page ≤ spaceRefs mm.space page + 1) →
            ∀ i < n, ∀ pte', validPte mm₂.space (src + pageSize + i * pageSize) = some pte' →
              MayMap reserved shared outer mm₂.space pte'.pa n prot.write := by
          intro mm₂ tidy leaves refs i below pte' here page held
          rw [tidy.validPte_eq] at here
          have first := may 0 (by omega) pte (by simpa [settled.tidy.validPte_eq] using source)
          rcases leaves _ _ here with same | old
          · rw [same] at held
            obtain ⟨room, alone⟩ := first page held
            have used := refs page (spaceRefs_pos source held)
            exact ⟨fun pooled => by have := room pooled; omega, alone⟩
          · have next : src + pageSize + i * pageSize = src + (i + 1) * pageSize := by ring
            rw [next] at old
            obtain ⟨room, alone⟩ := may (i + 1) (by omega) pte' (by rw [settled.tidy.validPte_eq]; exact old) page held
            have used := refs page (spaceRefs_pos old held)
            exact ⟨fun pooled => by have := room pooled; omega, alone⟩
        split at ran
        · split at ran
          · obtain ⟨settled', apart'⟩ := ih settled₁ (rest mm₁ settled₁.tidy
              (fun _ _ leaf => Or.inr (by rw [← leaves₁]; exact leaf)) fun page used => by rw [refs₁ page (by omega)]; omega) ran
            exact ⟨settled', apart₁.trans apart'⟩
          · cases ran
            exact ⟨settled₁, apart₁⟩
        · rename_i absent
          obtain ⟨_, _, whole⟩ := settled.tidy.backed source
          have first := may 0 (by omega) pte (by simpa [settled.tidy.validPte_eq] using source)
          have retained := @Settled.retainHand _ _ _ _ _ pte.pa settled₁ fun page held pooled => by
            have used := spaceRefs_pos source held
            have room := (first page held).1 pooled
            rw [refs₁ page (by omega)]
            omega
          obtain ⟨settled₂, apart₂⟩ := @Settled.setLeaf _ _ _ _ _ _ ⟨pte.pa, prot.write, false, prot.exec⟩ retained absent
            (table rfl) whole (fun write page held own => (first page held).2 write own) fun page held _ _ => by
              have used := spaceRefs_pos source held
              rw [refs₁ page (by omega)]
              exact used
          obtain ⟨settled', apart'⟩ := ih settled₂ (rest _ settled₂.tidy (fun index pte' leaf => by
              simp only [Mm.setLeaf, SortedMap.get?_set] at leaf
              split at leaf
              · cases leaf
                exact Or.inl rfl
              · exact Or.inr (by rw [← leaves₁]; exact leaf)) fun page used => by
              simp only [Mm.setLeaf, spaceRefs_setLeaf absent, refs₁ page (show outer page + _ ≠ 0 by omega), refOf_eq]
              have := Bool.toNat_le (holds pte.pa page)
              omega) ran
          have same : Apart reserved shared outer mm₁ { mm₁ with buddy := physRetainPage mm₁.buddy pte.pa } :=
            ⟨fun _ _ _ _ _ => rfl, fun _ _ _ some => some⟩
          exact ⟨settled', ((apart₁.trans same).trans apart₂).trans apart'⟩

theorem Settled.mmuAliasUserRegion {aliasStart srcStart size : Nat}
    (settled : Settled reserved shared outer (fun _ => 0) mm)
    (may : ∀ i < size / pageSize, ∀ pte, validPte mm.space (srcStart + i * pageSize) = some pte →
      MayMap reserved shared outer mm.space pte.pa (size / pageSize) prot.write)
    (ran : mmuAliasUserRegion mm aliasStart srcStart size prot = .ok (found, mm')) :
    Settled reserved shared outer (fun _ => 0) mm' ∧ Apart reserved shared outer mm mm' := by
  unfold Mmu.mmuAliasUserRegion at ran
  split at ran
  · cases ran
    exact ⟨settled, .refl _⟩
  · exact settled.aliasPages _ may ran

theorem Settled.unmapLeaf {index : Nat} {freed : Buddy} (settled : Settled reserved shared outer hand mm)
    (present : mm.space.leaves.get? index = some pte)
    (ran : physFreePage (mm.clearLeaf index).buddy pte.pa = .ok freed) :
    Settled reserved shared outer hand { mm.clearLeaf index with buddy := freed } ∧
      Apart reserved shared outer mm { mm.clearLeaf index with buddy := freed } := by
  obtain ⟨cleared, apart⟩ := settled.clearLeaf present
  exact ⟨cleared.freeHand ran, ⟨apart.bytes, apart.refs⟩⟩

theorem Settled.unmapPages (n : Nat) : ∀ {mm : Mm} {va : Nat}, Settled reserved shared outer hand mm →
    unmapPages mm va n = .ok mm' → Settled reserved shared outer hand mm' ∧ Apart reserved shared outer mm mm' := by
  induction n with
  | zero =>
    intro mm va settled ran
    cases ran
    exact ⟨settled, .refl _⟩
  | succ n ih =>
    intro mm va settled ran
    rw [Mmu.unmapPages] at ran
    split at ran
    · exact ih settled ran
    · rename_i pte present
      rw [settled.tidy.validPte_eq] at present
      obtain ⟨freed, dropped, ran⟩ := bind_ok ran
      obtain ⟨settled₁, apart₁⟩ := settled.unmapLeaf present dropped
      obtain ⟨settled', apart'⟩ := ih settled₁ ran
      exact ⟨settled', apart₁.trans apart'⟩

theorem Settled.mmuUnmapUserRegion {start size : Nat} (settled : Settled reserved shared outer hand mm)
    (ran : mmuUnmapUserRegion mm start size = .ok (found, mm')) :
    Settled reserved shared outer hand mm' ∧ Apart reserved shared outer mm mm' := by
  unfold Mmu.mmuUnmapUserRegion at ran
  split at ran
  · cases ran
    exact ⟨settled, .refl _⟩
  · obtain ⟨mm₁, unmapped, ran⟩ := bind_ok ran
    cases ran
    obtain ⟨settled₁, apart₁⟩ := settled.unmapPages _ unmapped
    obtain ⟨settled', apart'⟩ := settled₁.retrack
      (mm₁.space.extents.filter fun extent => !extent.overlaps start size) mm₁.space.mmapBase
    exact ⟨settled', apart₁.trans apart'⟩

theorem Settled.rollbackPhys (n : Nat) : ∀ {mm : Mm} {va : Nat}, Settled reserved shared outer hand mm →
    rollbackPhys mm va true n = .ok mm' → Settled reserved shared outer hand mm' ∧ Apart reserved shared outer mm mm' := by
  induction n with
  | zero =>
    intro mm va settled ran
    cases ran
    exact ⟨settled, .refl _⟩
  | succ n ih =>
    intro mm va settled ran
    rw [Mmu.rollbackPhys] at ran
    split at ran
    · exact ih settled ran
    · rename_i pte present
      rw [settled.tidy.validPte_eq] at present
      obtain ⟨freed, dropped, ran⟩ := bind_ok ran
      obtain ⟨settled₁, apart₁⟩ := settled.unmapLeaf present dropped
      obtain ⟨settled', apart'⟩ := ih settled₁ ran
      exact ⟨settled', apart₁.trans apart'⟩

/-- A page that somebody else has retained, and that is shared on purpose, may be retained once more. -/
def MayGive (reserved : Nat → Bool) (shared : Nat → Prop) (outer : Nat → Nat) (space : Space) (pa : Nat) : Prop :=
  ∀ page, holds pa page = true → Pooled reserved page →
    outer page ≠ 0 ∧ outer page + spaceRefs space page < 65535 ∧ shared page

theorem Settled.mapUserPagesPhys (n : Nat) : ∀ {mm : Mm} {mapped : Nat}, mapped + n ≤ 2 ^ 27 → pa % pageSize = 0 →
    Settled reserved shared outer (fun _ => 0) mm →
    (∀ i < n, MayGive reserved shared outer mm.space (pteAddr (pa + (mapped + i) * pageSize))) →
    mapUserPagesPhys mm va pa prot true mapped n = .ok (found, mm') →
    Settled reserved shared outer (fun _ => 0) mm' ∧ Apart reserved shared outer mm mm' := by
  induction n with
  | zero =>
    intro mm mapped _ _ settled _ ran
    cases ran
    exact ⟨settled, .refl _⟩
  | succ n ih =>
    intro mm mapped bound whole settled may ran
    rw [Mmu.mapUserPagesPhys] at ran
    obtain ⟨⟨ready, mm₁⟩, ensured, ran⟩ := bind_ok ran
    obtain ⟨settled₁, apart₁, refs₁, table⟩ := settled.ensureL3 ensured
    dsimp only at ran
    split at ran
    · obtain ⟨mm₂, rolled, ran⟩ := bind_ok ran
      cases ran
      obtain ⟨settled', apart'⟩ := settled₁.rollbackPhys _ rolled
      exact ⟨settled', apart₁.trans apart'⟩
    · rename_i free
      simp only [Bool.or_eq_true, not_or, Bool.not_eq_true', Bool.not_eq_false] at free
      obtain ⟨rfl, absent⟩ := free
      -- A page that others have retained is not the one a new table was made of.
      have known : ∀ i < n + 1, MayGive reserved shared outer mm₁.space (pteAddr (pa + (mapped + i) * pageSize)) := by
        intro i below page held pooled
        obtain ⟨out, room, given⟩ := may i below page held pooled
        rw [refs₁ page (by omega)]
        exact ⟨out, room, given⟩
      have first := known 0 (by omega)
      rw [Nat.add_zero] at first
      simp only [if_true] at ran
      have retained := @Settled.retainHand _ _ _ _ _ (pteAddr (pa + mapped * pageSize)) settled₁ fun page held pooled => by
        obtain ⟨out, room, _⟩ := first page held pooled
        omega
      have inHand : Settled reserved shared outer
          (fun page => 0 + refOf (userLeaf (pteAddr (pa + mapped * pageSize)) prot).pa page)
          { mm₁ with buddy := physRetainPage mm₁.buddy (pteAddr (pa + mapped * pageSize)) } := by
        simpa only [userLeaf, pteAddr_pteAddr] using retained
      obtain ⟨settled₂, apart₂⟩ := @Settled.setLeaf _ _ _ _ _ (va + mapped * pageSize) _ inHand (by simpa using absent) (table rfl)
        (by simp [userLeaf])
        (fun _ page held own => absurd (first page (by simpa [userLeaf] using held) own.1).2.2 own.2)
        fun page held own _ => absurd (first page (by simpa [userLeaf] using held) own.1).2.2 own.2
      obtain ⟨settled', apart'⟩ := ih (by omega) whole settled₂ (fun i below page held pooled => by
        rw [show mapped + 1 + i = mapped + (i + 1) by omega] at held
        obtain ⟨out, room, given⟩ := known (i + 1) (by omega) page held pooled
        refine ⟨out, ?_, given⟩
        -- The page just mapped is another one.
        have other : holds (userLeaf (pteAddr (pa + mapped * pageSize)) prot).pa page = false := by
          by_contra same
          have here := (holds_pteAddr (pteAddr_pteAddr _)).mp held
          have there := (holds_pteAddr (pteAddr_pteAddr (pa + mapped * pageSize))).mp
            (by simpa [userLeaf] using same)
          have equal := there.1.trans here.1.symm
          simp only [pteAddr, pageSize] at equal whole
          omega
        simp only [Mm.setLeaf]
        rw [spaceRefs_setLeaf (by simpa using absent), refOf_eq, other]
        simpa using room) ran
      have same : Apart reserved shared outer mm₁
          { mm₁ with buddy := physRetainPage mm₁.buddy (pteAddr (pa + mapped * pageSize)) } :=
        ⟨fun _ _ _ _ _ => rfl, fun _ _ _ some => some⟩
      exact ⟨settled', ((apart₁.trans same).trans apart₂).trans apart'⟩

theorem inWindow_iff {start size : Nat} : inWindow start size = true ↔
    size ≠ 0 ∧ start % pageSize = 0 ∧ size % pageSize = 0 ∧ mmuUserBase ≤ start ∧ start + size ≤ mmuUserLimit := by
  simp [inWindow, and_assoc]

theorem Settled.mmuMapUserPhysRegion {start size : Nat} (settled : Settled reserved shared outer (fun _ => 0) mm)
    (may : ∀ i < size / pageSize, MayGive reserved shared outer mm.space (pteAddr (pa + i * pageSize)))
    (ran : mmuMapUserPhysRegion mm start pa size prot true = .ok (found, mm')) :
    Settled reserved shared outer (fun _ => 0) mm' ∧ Apart reserved shared outer mm mm' := by
  unfold Mmu.mmuMapUserPhysRegion at ran
  split at ran
  · cases ran
    exact ⟨settled, .refl _⟩
  · rename_i window
    split at ran
    · cases ran
      exact ⟨settled, .refl _⟩
    · rename_i space tracked
      obtain ⟨_, _, rfl⟩ := spaceTrackExtent_cases tracked
      obtain ⟨⟨mapped, mm₁⟩, ran₁, ran⟩ := bind_ok ran
      obtain ⟨settled₁, apart₁⟩ := settled.retrack (mm.space.extents.rdropWhile (fun other => start < other.va) ++
        ⟨start, pa, size / pageSize, 0⟩ :: mm.space.extents.rtakeWhile (fun other => start < other.va))
        mm.space.mmapBase
      simp only [Bool.or_eq_true, Bool.not_eq_true', decide_eq_true_eq, not_or, Bool.not_eq_false, not_not] at window
      obtain ⟨inside, whole⟩ := window
      have pages : 0 + size / pageSize ≤ 2 ^ 27 := by
        have limit := (inWindow_iff.mp inside).2.2.2.2
        simp only [mmuUserLimit, pageSize] at *
        omega
      obtain ⟨settled₂, apart₂⟩ := Settled.mapUserPagesPhys (size / pageSize) pages whole settled₁
        (fun i below => by rw [Nat.zero_add]; exact may i below) ran₁
      cases mapped with
      | true =>
        cases ran
        exact ⟨settled₂, apart₁.trans apart₂⟩
      | false =>
        cases ran
        obtain ⟨settled', apart'⟩ := settled₂.retrack
          (mm₁.space.extents.filter fun extent => !extent.overlaps start size) mm₁.space.mmapBase
        exact ⟨settled', (apart₁.trans apart₂).trans apart'⟩

end

end Enlil.Mmu
