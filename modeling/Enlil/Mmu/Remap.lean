import Enlil.Mmu.Moves

/-! When a change of the size of a mapping keeps its bytes, and leaves no trace if it fails. -/

namespace Enlil.Mmu

open Pmm

/-- Mappings, their bytes and the extents are as they were. -/
structure Untouched (mm mm' : Mm) : Prop where
  pages : ∀ va, validPte mm'.space va = validPte mm.space va
  bytes : ∀ va, userByte mm'.space mm'.memory va = userByte mm.space mm.memory va
  extents : mm'.space.extents = mm.space.extents

/-- No mapped byte is moved to an address of the old range, which the move unmaps in the end. -/
def Carries (space : Space) (oldAddr oldAligned newAddr : Nat) : Prop :=
  ∀ i < oldAligned, (validPte space (oldAddr + i)).isSome → ¬ Struck oldAddr oldAligned (newAddr + i)

/-- A mapping either goes through, and then `moved` holds, or is refused before it leaves a trace. -/
def MapsWhole (space : Space) (start size : Nat) (moved : Prop) : Prop :=
  inWindow start size = true → mmuMaxSpaceExtents ≤ space.extents.length ∨
    (Fits space start (size / pageSize) (size / pageSize) ∧ moved)

/-- A size that is rounded up to whole pages without wrapping. -/
def RoundsUp (size : Nat) : Prop := size + (pageSize - 1) < 2 ^ 64

/-- A region can be moved onto mapped pages: they are not of the old range, and with them and their extents gone the new mapping fits. -/
structure MovesOnto (space : Space) (oldAddr oldSize newAligned newAddr : Nat) : Prop where
  tables : space.tableCount + tablesNeeded space.has2 space.has3 newAddr (newAligned / pageSize) ≤ mmuMaxSpaceTables
  extents : (spaceReleaseOverlappingExtents space newAddr newAligned).extents.length +
    blocksNeeded (newAligned / pageSize) (newAligned / pageSize) ≤ mmuMaxSpaceExtents
  rounds : RoundsUp oldSize
  spared : ∀ i < alignSize oldSize, (validPte space (oldAddr + i)).isSome → ¬ Struck newAddr newAligned (oldAddr + i)
  carries : Carries space oldAddr (alignSize oldSize) newAddr

/-- A move in which no mapping fails half done and no byte is unmapped before or after it is copied. -/
structure MovesWhole (space : Space) (oldAddr oldSize newAligned : Nat) (fixed : Option Nat) : Prop where
  anywhere : fixed = none → ∀ start, spaceFindFreeGap space newAligned = some start →
    MapsWhole space start newAligned (RoundsUp oldSize ∧ Carries space oldAddr (alignSize oldSize) start)
  free : ∀ addr, fixed = some addr → mmuRegionIsFree space addr newAligned = true →
    MapsWhole space addr newAligned (RoundsUp oldSize ∧ Carries space oldAddr (alignSize oldSize) addr)
  taken : ∀ addr, fixed = some addr → mmuRegionIsFree space addr newAligned = false →
    inWindow addr newAligned = true → MovesOnto space oldAddr oldSize newAligned addr

/-- A change of size that wraps around nowhere, grows whole and moves whole. -/
structure Lossless (space : Space) (oldAddr oldSize newSize : Nat) (mayMove : Bool) (fixed : Option Nat) : Prop where
  shrink : alignSize newSize < alignSize oldSize → RoundsUp newSize
  grow : alignSize oldSize < alignSize newSize →
    growsInPlace space oldAddr (alignSize oldSize) (alignSize newSize) = true →
    MapsWhole space ((oldAddr + alignSize oldSize) % 2 ^ 64) (alignSize newSize - alignSize oldSize) True
  move : alignSize oldSize < alignSize newSize →
    growsInPlace space oldAddr (alignSize oldSize) (alignSize newSize) = false → mayMove = true →
    MovesWhole space oldAddr oldSize (alignSize newSize) fixed

/-- The addresses and sizes for which a change is tried at all. -/
def Accepts (oldAddr newSize : Nat) : Prop :=
  newSize ≠ 0 ∧ oldAddr % pageSize = 0 ∧ mmuUserBase ≤ oldAddr ∧ oldAddr < mmuUserLimit

/-- What a change of size owes to its caller: the bytes that both sizes have, or nothing at all. -/
def Remapped (mm mm' : Mm) (oldAddr oldSize newSize : Nat) : Except RemapErrno Nat → Prop
  | .ok addr => ∀ i < min oldSize newSize, oldAddr + i < mmuUserLimit → ∀ byte,
      userByte mm.space mm.memory (oldAddr + i) = some byte → userByte mm'.space mm'.memory (addr + i) = some byte
  | .error _ => Untouched mm mm'

section

variable {reserved : Nat → Bool} {shared : Nat → Prop} {outer hand : Nat → Nat} {mm mm' mm₂ : Mm} {space : Space}
  {va pa start size page m n : Nat} {pte : Pte} {done : Bool} {buddy : Buddy} {prot : Prot}

theorem Untouched.refl (mm : Mm) : Untouched mm mm := ⟨fun _ => rfl, fun _ => rfl, rfl⟩

theorem mmuMapUserRegion_fills (settled : Settled reserved shared outer hand mm)
    (ran : mmuMapUserRegion mm start size prot = .ok (true, mm')) :
    inWindow start size = true ∧ Settled reserved shared outer hand mm' ∧ Fills mm mm' start (size / pageSize) := by
  have settled' := (Settled.mmuMapUserRegion settled ran fun _ => rfl).1
  unfold mmuMapUserRegion at ran
  split at ran
  · cases ran
  · rename_i accepted
    exact ⟨by simpa using accepted, settled', mapBlocks_fills _ settled ran⟩

theorem mmuMapUserRegion_refused (settled : Settled reserved shared outer hand mm)
    (refused : inWindow start size = true → mmuMaxSpaceExtents ≤ mm.space.extents.length)
    (ran : mmuMapUserRegion mm start size prot = .ok (done, mm')) : done = false ∧ Untouched mm mm' := by
  unfold mmuMapUserRegion at ran
  split at ran
  · cases ran
    exact ⟨rfl, .refl mm⟩
  · rename_i accepted
    have window : inWindow start size = true := by simpa using accepted
    have full := refused window
    -- The range has a page, and its first block finds no place in the list.
    obtain ⟨some, _, sized, _⟩ := inWindow_iff.mp window
    obtain ⟨pages, counted⟩ : ∃ pages, size / pageSize = pages + 1 := by
      refine ⟨size / pageSize - 1, ?_⟩
      unfold pageSize at *
      omega
    rw [counted, mapBlocks, if_neg (Nat.succ_ne_zero pages)] at ran
    obtain ⟨⟨pa, buddy⟩, allocated, ran⟩ := bind_ok ran
    simp only [spaceTrackExtent, full, or_true, if_true] at ran
    cases ran
    refine ⟨rfl, fun _ => rfl, fun va => userByte_congr rfl fun pte present offset inPage => ?_, rfl⟩
    rw [settled.tidy.validPte_eq] at present
    exact settled.mapped_outside allocated present offset inPage

theorem mmuMapUserRegion_fits (window : inWindow start size = true)
    (fits : Fits mm.space start (size / pageSize) (size / pageSize))
    (ran : mmuMapUserRegion mm start size prot = .ok (done, mm')) : done = true := by
  unfold mmuMapUserRegion at ran
  rw [window, Bool.not_true, if_neg (by decide)] at ran
  obtain ⟨_, _, _, _, limit⟩ := inWindow_iff.mp window
  refine mapBlocks_fits _ (Nat.le_refl _) ?_ fits ran
  unfold mmuUserLimit pageSize at *
  omega

theorem RoundsUp.le (rounds : RoundsUp size) : size ≤ alignSize size ∧ alignSize size / pageSize * pageSize = alignSize size := by
  unfold RoundsUp at rounds
  unfold alignSize pageSize at *
  omega

theorem Remapped.of_move {oldAddr oldSize newSize newAddr : Nat} {mm₁ : Mm} {result : Except RemapErrno Nat}
    (settled : Settled reserved shared outer hand mm₁) (window : inWindow newAddr (alignSize newSize) = true)
    (settled₂ : Settled reserved shared outer hand mm₂)
    (fills : Fills mm₁ mm₂ newAddr (alignSize newSize / pageSize)) (oldWhole : oldAddr % pageSize = 0)
    (grows : alignSize oldSize < alignSize newSize) (rounds : RoundsUp oldSize)
    (carries : Carries mm.space oldAddr (alignSize oldSize) newAddr)
    (same : ∀ i < alignSize oldSize, oldAddr + i < mmuUserLimit → ∀ byte,
      userByte mm.space mm.memory (oldAddr + i) = some byte → userByte mm₁.space mm₁.memory (oldAddr + i) = some byte)
    (ran : moveRegion mm₂ oldAddr newAddr (alignSize oldSize) = .ok (result, mm')) :
    Remapped mm mm' oldAddr oldSize newSize result := by
  obtain ⟨_, newWhole, sized, _, limit⟩ := inWindow_iff.mp window
  obtain ⟨fits, whole⟩ := rounds.le
  have newSized : alignSize newSize / pageSize * pageSize = alignSize newSize :=
    Nat.div_mul_cancel (Nat.dvd_of_mod_eq_zero sized)
  have pages : alignSize oldSize / pageSize ≤ alignSize newSize / pageSize :=
    Nat.div_le_div_right (Nat.le_of_lt grows)
  cases result with
  | error errno =>
    unfold moveRegion at ran
    obtain ⟨⟨_, mm₃⟩, _, ran⟩ := bind_ok ran
    cases ran
  | ok addr =>
    intro i below low byte was
    have inside : i < alignSize oldSize := by omega
    have present : (validPte mm.space (oldAddr + i)).isSome := by
      unfold userByte at was
      cases leaf : validPte mm.space (oldAddr + i) with
      | none => simp [leaf] at was
      | some pte => rfl
    obtain ⟨place, moved⟩ := moveRegion_bytes settled settled₂ fills (by rw [newSized]; exact limit) newWhole oldWhole
      pages (by rw [whole]; exact inside) (same i inside low byte was) (carries i inside present) ran
    cases place
    exact moved

theorem Remapped.of_mapAndMove {oldAddr oldSize newSize newAddr : Nat} {result : Except RemapErrno Nat}
    (settled : Settled reserved shared outer hand mm) (oldWhole : oldAddr % pageSize = 0)
    (grows : alignSize oldSize < alignSize newSize)
    (maps : MapsWhole mm.space newAddr (alignSize newSize)
      (RoundsUp oldSize ∧ Carries mm.space oldAddr (alignSize oldSize) newAddr))
    (ran : (do
      let (mapped, mm) ← mmuMapUserRegion mm newAddr (alignSize newSize) prot
      if mapped then moveRegion mm oldAddr newAddr (alignSize oldSize) else return (.error .enomem, mm)) =
        .ok (result, mm')) : Remapped mm mm' oldAddr oldSize newSize result := by
  obtain ⟨⟨mapped, mm₂⟩, region, ran⟩ := bind_ok ran
  cases mapped with
  | true =>
    obtain ⟨window, settled₂, fills⟩ := mmuMapUserRegion_fills settled region
    rcases maps window with full | ⟨_, rounds, carries⟩
    · exact absurd (mmuMapUserRegion_refused settled (fun _ => full) region).1 (by decide)
    · exact .of_move settled window settled₂ fills oldWhole grows rounds carries (fun _ _ _ _ was => was) ran
  | false =>
    cases ran
    refine (mmuMapUserRegion_refused settled (fun window => ?_) region).2
    rcases maps window with full | ⟨fits, _⟩
    · exact full
    · cases mmuMapUserRegion_fits window fits region

theorem mmuUnmapUserRegion_clears (settled : Settled reserved shared outer hand mm)
    (window : inWindow start size = true) (ran : mmuUnmapUserRegion mm start size = .ok (done, mm')) :
    mm'.space.l2Tables = mm.space.l2Tables ∧ mm'.space.l3Tables = mm.space.l3Tables ∧
      mm'.space.extents = (spaceReleaseOverlappingExtents mm.space start size).extents ∧
      ∀ i < size / pageSize, mm'.space.leaves.get? (pageIndex (start + i * pageSize)) = none := by
  unfold mmuUnmapUserRegion at ran
  rw [window, Bool.not_true, if_neg (by decide)] at ran
  obtain ⟨mm₁, unmapped, ran⟩ := bind_ok ran
  cases ran
  obtain ⟨_, upper, lower, extents, _⟩ := unmapPages_leaves _ settled.tidy.rooted unmapped
  obtain ⟨_, _, maps⟩ := settled.tidy.rooted.unmapPages _ unmapped
  refine ⟨upper, lower, ?_, fun i below => ?_⟩
  · simp only [spaceReleaseOverlappingExtents, extents]
  · by_contra present
    have mapped : mm₁.space.maps (pageIndex (start + i * pageSize)) = true := Option.isSome_iff_ne_none.mpr present
    exact ((maps _).mp mapped).2 i below rfl

theorem MovesOnto.fits {oldAddr oldSize : Nat} (onto : MovesOnto mm.space oldAddr oldSize size start)
    (settled : Settled reserved shared outer hand mm) (window : inWindow start size = true)
    (ran : mmuUnmapUserRegion mm start size = .ok (done, mm')) :
    Fits mm'.space start (size / pageSize) (size / pageSize) := by
  obtain ⟨upper, lower, extents, cleared⟩ := mmuUnmapUserRegion_clears settled window ran
  have has2 : mm'.space.has2 = mm.space.has2 := funext fun index => by rw [Space.has2, Space.has2, upper]
  have has3 : mm'.space.has3 = mm.space.has3 := funext fun index => by rw [Space.has3, Space.has3, lower]
  refine ⟨cleared, ?_, ?_⟩
  · rw [has2, has3, Space.tableCount, upper, lower]
    exact onto.tables
  · rw [extents]
    exact onto.extents

theorem Remapped.of_shrink {oldAddr oldSize newSize : Nat} (settled : Settled reserved shared outer hand mm)
    (inside : oldAddr < mmuUserLimit) (shrinks : alignSize newSize < alignSize oldSize) (rounds : RoundsUp newSize)
    (ran : mmuUnmapUserRegion mm ((oldAddr + alignSize newSize) % 2 ^ 64) (alignSize oldSize - alignSize newSize) =
      .ok (done, mm')) : Remapped mm mm' oldAddr oldSize newSize (.ok oldAddr) := by
  intro i below low byte was
  rw [mmuUnmapUserRegion_bytes settled ran low, was]
  rintro ⟨_, above, within⟩
  -- The tail does not wrap around to the front, because the whole region is shorter than the address space.
  have fits := rounds.le.1
  have bound : alignSize oldSize < 2 ^ 64 := by
    unfold alignSize pageSize
    omega
  unfold mmuUserLimit at inside low
  omega

theorem Settled.raised (settled : Settled reserved shared outer hand mm') (fills : Fills mm mm' va n) (stop : Nat) :
    Settled reserved shared outer hand (raiseMmapBase mm' stop) ∧ Fills mm (raiseMmapBase mm' stop) va n := by
  unfold raiseMmapBase
  split
  · exact ⟨(settled.retrack mm'.space.extents stop).1, fills.kept, fills.bytes, fills.vacant, fills.fresh, fills.added⟩
  · exact ⟨settled, fills⟩

/-- A change that wraps around nowhere, grows whole and moves whole keeps the bytes that both sizes have, and a failed one changes nothing. -/
theorem remap_lossless {oldAddr oldSize newSize : Nat} {mayMove : Bool} {fixed : Option Nat}
    {result : Except RemapErrno Nat} (settled : Settled reserved shared outer hand mm)
    (lossless : Accepts oldAddr newSize → Lossless mm.space oldAddr oldSize newSize mayMove fixed)
    (ran : mmuRemapUserRegion mm oldAddr oldSize newSize mayMove fixed = .ok (result, mm')) :
    Remapped mm mm' oldAddr oldSize newSize result := by
  unfold mmuRemapUserRegion at ran
  rcases ite_eq_iff.mp ran with ⟨_, ran⟩ | ⟨accepted, ran⟩
  · cases ran
    exact .refl mm
  have accepts : Accepts oldAddr newSize := by
    unfold Accepts
    omega
  replace lossless := lossless accepts
  obtain ⟨_, oldWhole, _, oldLow⟩ := accepts
  rcases ite_eq_iff.mp ran with ⟨_, ran⟩ | ⟨_, ran⟩
  · cases ran
    exact fun _ _ _ _ was => was
  rcases ite_eq_iff.mp ran with ⟨shrinks, ran⟩ | ⟨grows, ran⟩
  · -- The tail is unmapped.
    obtain ⟨⟨_, mm₁⟩, unmapped, ran⟩ := bind_ok ran
    cases ran
    exact .of_shrink settled oldLow shrinks (lossless.shrink shrinks) unmapped
  replace grows : alignSize oldSize < alignSize newSize := by omega
  rcases ite_eq_iff.mp ran with ⟨place, ran⟩ | ⟨place, ran⟩
  · -- The tail is mapped in place.
    have inPlace : growsInPlace mm.space oldAddr (alignSize oldSize) (alignSize newSize) = true := by
      simpa [growsInPlace] using place
    have maps := lossless.grow grows inPlace
    obtain ⟨⟨mapped, mm₁⟩, region, ran⟩ := bind_ok ran
    cases mapped with
    | true =>
      cases ran
      obtain ⟨_, settled₁, fills⟩ := mmuMapUserRegion_fills settled region
      exact fun i _ _ byte was => fills.userByte settled.tidy settled₁.tidy was
    | false =>
      cases ran
      refine (mmuMapUserRegion_refused settled (fun window => ?_) region).2
      rcases maps window with full | ⟨fits, _⟩
      · exact full
      · cases mmuMapUserRegion_fits window fits region
  have moves : growsInPlace mm.space oldAddr (alignSize oldSize) (alignSize newSize) = false := by
    rw [Bool.eq_false_iff]
    intro inPlace
    exact place (by simpa [growsInPlace] using inPlace)
  rcases ite_eq_iff.mp ran with ⟨_, ran⟩ | ⟨may, ran⟩
  · cases ran
    exact .refl mm
  have whole := lossless.move grows moves (by simpa using may)
  rcases fixed with _ | addr
  · -- The region moves to the lowest gap.
    obtain ⟨⟨gap, mm₁⟩, anywhere, ran⟩ := bind_ok ran
    unfold mmuMapUserAnywhere at anywhere
    rw [alignSize_alignSize] at anywhere
    split at anywhere
    · omega
    split at anywhere
    · cases anywhere
      cases ran
      exact .refl mm
    · rename_i start lowest
      have maps := whole.anywhere rfl start lowest
      obtain ⟨⟨mapped, mm₂⟩, region, anywhere⟩ := bind_ok anywhere
      cases mapped with
      | true =>
        cases anywhere
        obtain ⟨window, settled₂, fills⟩ := mmuMapUserRegion_fills settled region
        rcases maps window with full | ⟨_, rounds, carries⟩
        · exact absurd (mmuMapUserRegion_refused settled (fun _ => full) region).1 (by decide)
        · obtain ⟨settled₃, fills₃⟩ := settled₂.raised fills (start + alignSize newSize)
          exact .of_move settled window settled₃ fills₃ oldWhole grows rounds carries (fun _ _ _ _ was => was) ran
      | false =>
        cases anywhere
        cases ran
        refine (mmuMapUserRegion_refused settled (fun window => ?_) region).2
        rcases maps window with full | ⟨fits, _⟩
        · exact full
        · cases mmuMapUserRegion_fits window fits region
  · rcases ite_eq_iff.mp ran with ⟨_, ran⟩ | ⟨_, ran⟩
    · cases ran
      exact .refl mm
    -- The place is free, or it is unmapped first.
    rcases ite_eq_iff.mp ran with ⟨free, ran⟩ | ⟨taken, ran⟩
    · exact .of_mapAndMove settled oldWhole grows (whole.free addr rfl free) ran
    · obtain ⟨⟨_, mm₁⟩, unmapped, ran⟩ := bind_ok ran
      obtain ⟨⟨mapped, mm₂⟩, region, ran⟩ := bind_ok ran
      have settled₁ := (Settled.mmuUnmapUserRegion settled unmapped).1
      by_cases window : inWindow addr (alignSize newSize) = true
      · have onto := whole.taken addr rfl (by simpa using taken) window
        obtain rfl := mmuMapUserRegion_fits window (onto.fits settled window unmapped) region
        obtain ⟨_, settled₂, fills⟩ := mmuMapUserRegion_fills settled₁ region
        refine .of_move settled₁ window settled₂ fills oldWhole grows onto.rounds onto.carries
          (fun i inside low byte was => ?_) ran
        have present : (validPte mm.space (oldAddr + i)).isSome := by
          unfold userByte at was
          cases leaf : validPte mm.space (oldAddr + i) with
          | none => simp [leaf] at was
          | some pte => rfl
        rw [mmuUnmapUserRegion_bytes settled unmapped low (onto.spared i inside present), was]
      · -- Neither call takes a range outside the window.
        simp only [Bool.not_eq_true] at window
        simp only [mmuUnmapUserRegion, window, Bool.not_false, if_true] at unmapped
        cases unmapped
        simp only [mmuMapUserRegion, window, Bool.not_false, if_true] at region
        cases region
        cases ran
        exact .refl mm

end

/-- Whether the first page of a space can grow to two pages in place. -/
def growsToTwo (mm : Mm) : Bool :=
  (mm.space.leaves.get? (pageIndex (mmuUserBase + pageSize))).isNone &&
    mm.space.tableCount + tablesNeeded mm.space.has2 mm.space.has3 (mmuUserBase + pageSize) 1 ≤ mmuMaxSpaceTables &&
    mm.space.extents.length < mmuMaxSpaceExtents &&
    match mmuRemapUserRegion mm mmuUserBase pageSize (2 * pageSize) false none with
    | .ok (.ok addr, _) => decide (addr = mmuUserBase)
    | _ => false

/-- A page grows to two pages in place and keeps its bytes. -/
theorem remap_lossless_grown :
    ∃ s space mm', Run exec (Allowed kernelReserved) emptyBoot s ∧ s.state.spaces 0 = some space ∧
      mmuRemapUserRegion (s.state.mm space) mmuUserBase pageSize (2 * pageSize) false none = .ok (.ok mmuUserBase, mm') ∧
      Remapped (s.state.mm space) mm' mmuUserBase pageSize (2 * pageSize) (.ok mmuUserBase) := by
  have found : (runList exec (fun s op => s.starting op = true) emptyBoot firstSpace).any
      (fun s => (s.state.spaces 0).any fun space => growsToTwo (s.state.mm space)) = true := by
    decide
  obtain ⟨s, run, grows⟩ := runList_any found
  have allowed := run.mono fun _ _ starting => @Session.starting_allowed kernelReserved _ _ starting
  cases here : s.state.spaces 0 with
  | none => simp [here] at grows
  | some space =>
    rw [here, Option.any_some, growsToTwo] at grows
    simp only [Bool.and_eq_true, decide_eq_true_eq, Option.isNone_iff_eq_none] at grows
    obtain ⟨⟨⟨leaf, tables⟩, extents⟩, ran⟩ := grows
    split at ran
    · rename_i addr mm' returned
      obtain rfl : addr = mmuUserBase := by simpa using ran
      refine ⟨s, space, mm', allowed, here, returned, ?_⟩
      have settled := ((run_accounted largestBlocks_tiles allowed).1).settled here
      refine remap_lossless settled (fun _ => ⟨fun no => absurd no (by decide), fun _ _ _ => Or.inr ⟨?_, trivial⟩,
        fun _ _ no => by cases no⟩) returned
      have start : (mmuUserBase + alignSize pageSize) % 2 ^ 64 = mmuUserBase + pageSize := by decide
      have pages : (alignSize (2 * pageSize) - alignSize pageSize) / pageSize = 1 := by decide
      have blocks : blocksNeeded 1 1 = 1 := by decide
      rw [start, pages]
      refine ⟨fun i below => ?_, tables, by rw [blocks]; exact extents⟩
      rw [Nat.lt_one_iff.mp below, Nat.zero_mul, Nat.add_zero]
      exact leaf
    · cases ran

/-- The calls that make a first space and map its first three pages one by one. -/
def threePages : List Op :=
  [.create, .trampoline 0, .map 0 mmuUserBase pageSize ⟨true, false⟩,
    .map 0 (mmuUserBase + pageSize) pageSize ⟨true, false⟩, .map 0 (mmuUserBase + 2 * pageSize) pageSize ⟨true, false⟩]

/-- Whether two pages that are moved up by one page, to grow to three, are not where the call says. -/
def losesPage (mm : Mm) : Bool :=
  match mmuRemapUserRegion mm mmuUserBase (2 * pageSize) (3 * pageSize) true (some (mmuUserBase + pageSize)) with
  | .ok (.ok addr, mm') => decide (addr = mmuUserBase + pageSize) &&
      decide (userByte mm.space mm.memory mmuUserBase = some 0) &&
      (userByte mm'.space mm'.memory (mmuUserBase + pageSize)).isNone
  | _ => false

/-- A region is moved onto its own second page: the call succeeds, and at the address that it returns nothing is mapped. -/
theorem remap_loses_page :
    ∃ s space mm', Run exec (Allowed kernelReserved) emptyBoot s ∧ s.state.spaces 0 = some space ∧
      mmuRemapUserRegion (s.state.mm space) mmuUserBase (2 * pageSize) (3 * pageSize) true
        (some (mmuUserBase + pageSize)) = .ok (.ok (mmuUserBase + pageSize), mm') ∧
      userByte space s.state.memory mmuUserBase = some 0 ∧
      userByte mm'.space mm'.memory (mmuUserBase + pageSize) = none ∧
      ¬ Remapped (s.state.mm space) mm' mmuUserBase (2 * pageSize) (3 * pageSize) (.ok (mmuUserBase + pageSize)) := by
  have found : (runList exec (fun s op => s.starting op = true) emptyBoot threePages).any
      (fun s => (s.state.spaces 0).any fun space => losesPage (s.state.mm space)) = true := by
    decide +kernel
  obtain ⟨s, run, loses⟩ := runList_any found
  have allowed := run.mono fun _ _ starting => @Session.starting_allowed kernelReserved _ _ starting
  cases here : s.state.spaces 0 with
  | none => simp [here] at loses
  | some space =>
    rw [here, Option.any_some, losesPage] at loses
    split at loses
    · rename_i addr mm' returned
      simp only [Bool.and_eq_true, decide_eq_true_eq, Option.isNone_iff_eq_none] at loses
      obtain ⟨⟨rfl, was⟩, gone⟩ := loses
      refine ⟨s, space, mm', allowed, here, returned, was, gone, fun remapped => ?_⟩
      have there := remapped 0 (by decide) (by decide) 0 was
      rw [Nat.add_zero, gone] at there
      cases there
    · cases loses

end Enlil.Mmu
