import Enlil.Mmu.References

/-! When a failed mapping of a region leaves no trace in its space and the allocator. -/

namespace Enlil.Mmu

open Pmm

/-- What a failed mapping of a range owes to its caller. -/
structure Atomic (mm mm' : Mm) (start size : Nat) : Prop where
  /-- No page of the range appears. -/
  unmapped : ∀ va, start ≤ va → va < start + size → validPte mm.space va = none → validPte mm'.space va = none
  /-- Every page that was mapped stays as it was. -/
  mapped : ∀ {va pte}, validPte mm.space va = some pte →
    validPte mm'.space va = some pte ∧ ∀ offset < pageSize, mm'.memory (pte.pa + offset) = mm.memory (pte.pa + offset)
  extents : mm'.space.extents = mm.space.extents
  /-- The only pages spent are those of tables that hang in the space. -/
  free : mm'.buddy.totalFreePages.toNat + mm'.space.tableCount = mm.buddy.totalFreePages.toNat + mm.space.tableCount

section

variable {own : Nat → Holder} {mm mm' : Mm} {va pa start size count : Nat} {prot : Prot} {done : Bool}

theorem Atomic.refl (mm : Mm) (start size : Nat) : Atomic mm mm start size :=
  ⟨fun _ _ _ absent => absent, fun present => ⟨present, fun _ _ => rfl⟩, rfl, rfl⟩

theorem mapUserPagesRaw_extents (n : Nat) : ∀ {mm : Mm} {va pa : Nat},
    mapUserPagesRaw mm va pa prot n = .ok (done, mm') → mm'.space.extents = mm.space.extents := by
  induction n with
  | zero =>
    intro mm va pa ran
    cases ran
    rfl
  | succ n ih =>
    intro mm va pa ran
    rw [mapUserPagesRaw] at ran
    obtain ⟨⟨found, mm₁⟩, tables, ran⟩ := bind_ok ran
    have kept := (spaceEnsureL3_frame tables).2.2.1
    dsimp only at ran
    split at ran
    · cases ran
      exact kept
    · split at ran
      · cases ran
        exact kept
      · exact (ih ran).trans kept

theorem mapBlocks_extents (fuel : Nat) : ∀ {mm : Mm} {va remaining : Nat},
    mapBlocks mm va remaining prot fuel = .ok (done, mm') → mm.space.extents.length ≤ mm'.space.extents.length := by
  induction fuel with
  | zero =>
    intro mm va remaining ran
    cases ran
    exact Nat.le_refl _
  | succ fuel ih =>
    intro mm va remaining ran
    rw [mapBlocks] at ran
    split at ran
    · cases ran
      exact Nat.le_refl _
    · obtain ⟨⟨pa, buddy⟩, _, ran⟩ := bind_ok ran
      dsimp only at ran
      split at ran
      · cases ran
        exact Nat.le_refl _
      · rename_i space tracked
        have longer := spaceTrackExtent_length tracked
        obtain ⟨⟨mapped, mm₁⟩, raw, ran⟩ := bind_ok ran
        have kept := congrArg List.length (mapUserPagesRaw_extents _ raw)
        dsimp only at ran kept
        split at ran
        · have more := ih ran
          omega
        · cases ran
          omega

theorem mapBlocks_leaves (sound : Pmm.Sound own (fun _ => False) mm.buddy) {remaining fuel : Nat} (some : remaining ≠ 0)
    (ran : mapBlocks mm va remaining prot (fuel + 1) = .ok (done, mm')) :
    mm.space.extents.length < mm'.space.extents.length ∨
      (mm'.space = mm.space ∧ mm'.buddy.totalFreePages.toNat < mm.buddy.totalFreePages.toNat) := by
  rw [mapBlocks, if_neg some] at ran
  obtain ⟨⟨pa, buddy⟩, allocated, ran⟩ := bind_ok ran
  dsimp only at ran
  split at ran
  · -- The list of extents is full, and the block is in no page table yet.
    cases ran
    obtain ⟨_, idx, _, granted⟩ := sound.physAllocPages allocated
    have fewer := granted.fewer sound
    have positive := Nat.two_pow_pos (largestOrderFit remaining 0 maxOrder)
    refine Or.inr ⟨rfl, ?_⟩
    dsimp only
    omega
  · rename_i space tracked
    have longer := spaceTrackExtent_length tracked
    obtain ⟨⟨mapped, mm₁⟩, raw, ran⟩ := bind_ok ran
    have kept := congrArg List.length (mapUserPagesRaw_extents _ raw)
    dsimp only at ran kept
    refine Or.inl ?_
    split at ran
    · have more := mapBlocks_extents fuel ran
      omega
    · cases ran
      omega

/-- A failed mapping leaves everything as it was exactly if it was refused before its first block was allocated. -/
theorem map_atomic (sound : Pmm.Sound own (fun _ => False) mm.buddy)
    (failed : mmuMapUserRegion mm start size prot = .ok (false, mm')) :
    Atomic mm mm' start size ↔ inWindow start size = false := by
  unfold mmuMapUserRegion at failed
  cases inside : inWindow start size with
  | false =>
    rw [inside] at failed
    cases failed
    exact ⟨fun _ => rfl, fun _ => .refl mm start size⟩
  | true =>
    rw [inside, Bool.not_true, if_neg (by decide)] at failed
    simp only [Bool.true_eq_false, iff_false]
    intro atomic
    -- An accepted range has a page, and so a first block.
    obtain ⟨pages, counted⟩ : ∃ pages, size / pageSize = pages + 1 := by
      refine ⟨size / pageSize - 1, ?_⟩
      simp only [inWindow, Bool.and_eq_true, decide_eq_true_eq] at inside
      simp only [pageSize] at *
      omega
    rw [counted] at failed
    rcases mapBlocks_leaves sound (Nat.succ_ne_zero pages) failed with longer | ⟨same, fewer⟩
    · rw [atomic.extents] at longer
      exact absurd longer (Nat.lt_irrefl _)
    · have free := atomic.free
      rw [same] at free
      omega

end

/-- A call without a size changes nothing. -/
theorem map_atomic_empty :
    ∃ mm', mmuMapUserRegion (emptyBoot.state.mm (emptySpace 0)) mmuUserBase 0 ⟨true, false⟩ = .ok (false, mm') ∧
      Atomic (emptyBoot.state.mm (emptySpace 0)) mm' mmuUserBase 0 := by
  have sound : Pmm.Sound (holders kernelReserved fun _ => 0) (fun _ => False)
      (emptyBoot.state.mm (emptySpace 0)).buddy := boot_ledger largestBlocks_tiles
  have refused : mmuMapUserRegion (emptyBoot.state.mm (emptySpace 0)) mmuUserBase 0 ⟨true, false⟩ =
      .ok (false, emptyBoot.state.mm (emptySpace 0)) := rfl
  exact ⟨_, refused, (map_atomic sound refused).mpr rfl⟩

/-- The calls that make a first space and map its second page. -/
def secondPage : List Op := [.create, .trampoline 0, .map 0 (mmuUserBase + pageSize) pageSize ⟨true, false⟩]

/-- Whether mapping two pages from the start of the window fails with the first of them mapped. -/
def mapsHalf (mm : Mm) : Bool :=
  match mmuMapUserRegion mm mmuUserBase (2 * pageSize) ⟨true, false⟩ with
  | .ok (false, mm') => (validPte mm.space mmuUserBase).isNone && (validPte mm'.space mmuUserBase).isSome
  | _ => false

/-- Two pages are mapped where the second is mapped already: the call fails, and the first stays mapped. -/
theorem map_leaves_page :
    ∃ s space mm', Run exec (Allowed kernelReserved) emptyBoot s ∧ s.state.spaces 0 = some space ∧
      mmuMapUserRegion (s.state.mm space) mmuUserBase (2 * pageSize) ⟨true, false⟩ = .ok (false, mm') ∧
      validPte space mmuUserBase = none ∧ (validPte mm'.space mmuUserBase).isSome ∧
      ¬ Atomic (s.state.mm space) mm' mmuUserBase (2 * pageSize) := by
  have found : (runList exec (fun s op => s.starting op = true) emptyBoot secondPage).any
      (fun s => (s.state.spaces 0).any fun space => mapsHalf (s.state.mm space)) = true := by
    decide
  obtain ⟨s, run, half⟩ := runList_any found
  cases here : s.state.spaces 0 with
  | none => simp [here] at half
  | some space =>
    rw [here, Option.any_some, mapsHalf] at half
    split at half
    · rename_i mm' failed
      simp only [Bool.and_eq_true, Option.isNone_iff_eq_none] at half
      refine ⟨s, space, mm', run.mono fun _ _ starting => Session.starting_allowed starting, here, failed, half.1,
        half.2, fun atomic => ?_⟩
      have absent := atomic.unmapped mmuUserBase (Nat.le_refl _) (by decide) half.1
      rw [absent] at half
      cases half.2
    · cases half

end Enlil.Mmu
