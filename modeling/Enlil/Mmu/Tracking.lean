import Enlil.Mmu.CloneAccounts
import Enlil.Mmu.Extents
import Enlil.Mmu.References

/-! Runs of the mapping calls, and the discipline under which the extents describe what is mapped. -/

namespace Enlil.Mmu

open Pmm

/-- A region to be mapped that no extent meets. -/
def Vacant (space : Space) (start size : Nat) : Prop := inWindow start size = true → Clear space.extents start size

/-- Two ranges that do not meet. -/
def Beside (start size start' size' : Nat) : Prop := start + size ≤ start' ∨ start' + size' ≤ start

/-- Whether a mapping can grow in place. -/
def growsInPlace (space : Space) (oldAddr oldAligned newAligned : Nat) : Bool :=
  let extend := newAligned - oldAligned
  let extStart := (oldAddr + oldAligned) % 2 ^ 64
  (extStart + extend) % 2 ^ 64 ≤ mmuUserSigtrampVa && mmuRegionIsFree space extStart extend

/-- A move that cuts no extent and whose new place is apart from the old one. -/
structure MayMove (space : Space) (oldAddr oldAligned newAligned : Nat) (fixed : Option Nat) : Prop where
  old : Uncut space oldAddr oldAligned
  anywhere : fixed = none → ∀ start, spaceFindFreeGap space newAligned = some start →
    Beside oldAddr oldAligned start newAligned
  free : ∀ addr, fixed = some addr → mmuRegionIsFree space addr newAligned = true → Vacant space addr newAligned
  taken : ∀ addr, fixed = some addr → mmuRegionIsFree space addr newAligned = false → Uncut space addr newAligned
  apart : ∀ addr, fixed = some addr → Beside oldAddr oldAligned addr newAligned

/-- A change of size that cuts no extent and maps no region that an extent meets. -/
structure MayRemap (space : Space) (oldAddr oldSize newSize : Nat) (fixed : Option Nat) : Prop where
  shrink : alignSize newSize < alignSize oldSize →
    Uncut space ((oldAddr + alignSize newSize) % 2 ^ 64) (alignSize oldSize - alignSize newSize)
  grow : alignSize oldSize < alignSize newSize →
    growsInPlace space oldAddr (alignSize oldSize) (alignSize newSize) = true →
    Vacant space ((oldAddr + alignSize oldSize) % 2 ^ 64) (alignSize newSize - alignSize oldSize)
  move : alignSize oldSize < alignSize newSize →
    growsInPlace space oldAddr (alignSize oldSize) (alignSize newSize) = false →
    MayMove space oldAddr (alignSize oldSize) (alignSize newSize) fixed

/-- The calls that change what is mapped. -/
inductive Call where
  | create
  | trampoline (i : Nat)
  | map (i start size : Nat) (prot : Prot)
  | mapAnywhere (i size : Nat) (prot : Prot)
  | aliasRegion (i aliasStart srcStart size : Nat) (prot : Prot)
  | unmap (i start size : Nat)
  | remap (i oldAddr oldSize newSize : Nat) (mayMove : Bool) (fixed : Option Nat)
  | clone (parent stackCopyStart : Nat)
  | destroy (i : Nat)
  /-- A fault of user code. -/
  | fault (i far : Nat) (wnr : Bool)

/-- What each call does. -/
def State.call (s : State) : Call → Except Halt State
  | .create => do
    let (_, s) ← mmuSpaceCreate s
    return s
  | .trampoline i => do
    let (_, s) ← mmuSpaceMapSignalTrampoline s i
    return s
  | .map i start size prot => do
    let (_, s) ← onSpace s i false fun mm => mmuMapUserRegion mm start size prot
    return s
  | .mapAnywhere i size prot => do
    let (_, s) ← onSpace s i none fun mm => mmuMapUserAnywhere mm size prot
    return s
  | .aliasRegion i aliasStart srcStart size prot => do
    let (_, s) ← onSpace s i false fun mm => mmuAliasUserRegion mm aliasStart srcStart size prot
    return s
  | .unmap i start size => do
    let (_, s) ← onSpace s i false fun mm => mmuUnmapUserRegion mm start size
    return s
  | .remap i oldAddr oldSize newSize mayMove fixed => do
    let (_, s) ← onSpace s i (.error .einval) fun mm => mmuRemapUserRegion mm oldAddr oldSize newSize mayMove fixed
    return s
  | .clone parent stackCopyStart => do
    let (_, s) ← mmuSpaceCloneCow s parent stackCopyStart
    return s
  | .destroy i => mmuSpaceDestroy s i
  | .fault i far wnr => do
    let (_, s) ← onSpace s i false fun mm => mmuHandleUserFault mm far wnr
    return s

/-- The discipline of a run: regions are mapped where no extent is, unmapped without cutting extents, aliased only without a source, and only spaces without pages below the trampoline are cloned. -/
def MayTrack (s : State) : Call → Prop
  | .map i start size _ => ∀ space, s.spaces i = some space → Vacant space start size
  | .aliasRegion i _ srcStart _ _ => ∀ space, s.spaces i = some space → validPte space srcStart = none
  | .unmap i start size => ∀ space, s.spaces i = some space → inWindow start size = true → Uncut space start size
  | .remap i oldAddr oldSize newSize _ fixed => ∀ space, s.spaces i = some space →
      MayRemap space oldAddr oldSize newSize fixed
  | .clone parent _ => ∀ space, s.spaces parent = some space → ∀ page, space.maps page = true →
      mmuUserSigtrampVa ≤ page * pageSize
  | _ => True

section

variable {mm mm' : Mm} {space space' : Space} {va pa page start size start' size' : Nat} {found : Bool} {prot : Prot}

theorem findGapFrom_clear : ∀ {extents : List Extent} {cursor : Nat},
    extents.Pairwise (fun first second => first.stop ≤ second.va) → findGapFrom size cursor extents = some start →
    cursor ≤ start ∧ Clear extents start size
  | [], cursor, _, found => by
    rw [findGapFrom] at found
    split at found
    · cases found
      exact ⟨Nat.le_refl _, nofun⟩
    · cases found
  | extent :: rest, cursor, sorted, found => by
    obtain ⟨below, sortedRest⟩ := List.pairwise_cons.mp sorted
    have positive : extent.va ≤ extent.stop := Nat.le_add_right _ _
    rw [findGapFrom] at found
    split at found
    · obtain ⟨after, clear⟩ := findGapFrom_clear sortedRest found
      exact ⟨after, List.forall_mem_cons.mpr ⟨overlaps_eq_false.mpr (by omega), clear⟩⟩
    · split at found
      · cases found
        -- The gap ends in front of this extent, and so in front of all later ones.
        refine ⟨Nat.le_refl _, List.forall_mem_cons.mpr ⟨overlaps_eq_false.mpr (by omega), fun other member => ?_⟩⟩
        have later := below other member
        exact overlaps_eq_false.mpr (by omega)
      · obtain ⟨after, clear⟩ := findGapFrom_clear sortedRest found
        exact ⟨by omega, List.forall_mem_cons.mpr ⟨overlaps_eq_false.mpr (by omega), clear⟩⟩

theorem Rooted.mmuMapUserRegion (rooted : Rooted mm.space)
    (ran : mmuMapUserRegion mm start size prot = .ok (found, mm')) :
    Rooted mm'.space ∧ Grown mm.space mm'.space start size ∧
      (Tracked mm.space → Vacant mm.space start size → Tracked mm'.space) ∧
      (found = true → ∀ page, start ≤ page * pageSize → page * pageSize < start + size → mm.space.maps page = false) := by
  unfold Mmu.mmuMapUserRegion at ran
  split at ran
  · cases ran
    exact ⟨rooted, ⟨fun _ => Or.inl, fun _ => Or.inl, fun _ => id⟩, fun tracked _ => tracked, nofun⟩
  · rename_i accepted
    simp only [Bool.not_eq_true', Bool.not_eq_false] at accepted
    obtain ⟨_, aligned, sized, _, limit⟩ := inWindow_iff.mp accepted
    have whole : size / pageSize * pageSize = size := Nat.div_mul_cancel (Nat.dvd_of_mod_eq_zero sized)
    obtain ⟨rooted', grown, tracked', free⟩ := rooted.mapBlocks _ aligned (by rw [whole]; exact limit) ran
    rw [whole] at grown tracked'
    refine ⟨rooted', grown, fun tracked vacant => tracked' tracked (vacant accepted), fun yes page above below => ?_⟩
    by_cases low : page < 2 ^ 27
    · obtain ⟨i, inside, rfl⟩ := (page_in_range aligned sized limit low).mpr ⟨above, below⟩
      exact free yes i inside
    · by_contra was
      exact low (rooted.low page (by simpa using was))

theorem raiseMmapBase_space (mm : Mm) (stop : Nat) :
    (raiseMmapBase mm stop).space.leaves = mm.space.leaves ∧ (raiseMmapBase mm stop).space.extents = mm.space.extents ∧
      (raiseMmapBase mm stop).space.l2Tables = mm.space.l2Tables ∧
      (raiseMmapBase mm stop).space.l3Tables = mm.space.l3Tables := by
  unfold raiseMmapBase
  split <;> exact ⟨rfl, rfl, rfl, rfl⟩

theorem Rooted.mmuMapUserAnywhere {place : Option Nat} (rooted : Rooted mm.space)
    (ran : mmuMapUserAnywhere mm size prot = .ok (place, mm')) :
    Rooted mm'.space ∧ (Tracked mm.space → Tracked mm'.space) ∧
      (∀ start, place = some start → spaceFindFreeGap mm.space (alignSize size) = some start ∧
        Grown mm.space mm'.space start (alignSize size) ∧
        ∀ page, start ≤ page * pageSize → page * pageSize < start + alignSize size → mm.space.maps page = false) := by
  unfold Mmu.mmuMapUserAnywhere at ran
  split at ran
  · cases ran
    exact ⟨rooted, id, nofun⟩
  · split at ran
    · cases ran
      exact ⟨rooted, id, nofun⟩
    · rename_i gap lowest
      obtain ⟨⟨mapped, mm₁⟩, region, ran⟩ := bind_ok ran
      obtain ⟨rooted₁, grown₁, tracked₁, free₁⟩ := rooted.mmuMapUserRegion region
      have tracks : Tracked mm.space → Tracked mm₁.space := fun tracked =>
        tracked₁ tracked fun _ => (findGapFrom_clear tracked.apart lowest).2
      cases mapped with
      | false =>
        cases ran
        exact ⟨rooted₁, tracks, nofun⟩
      | true =>
        cases ran
        obtain ⟨leaves, extents, tables2, tables3⟩ := raiseMmapBase_space mm₁ (gap + alignSize size)
        have maps : ∀ page, (raiseMmapBase mm₁ (gap + alignSize size)).space.maps page = mm₁.space.maps page := fun page => by
          rw [Space.maps, Space.maps, leaves]
        refine ⟨rooted₁.congr tables2 tables3 fun page => by rw [maps]; exact id, fun tracked =>
          (tracks tracked).congr extents fun page now _ => by rw [← maps]; exact now, fun start same => ?_⟩
        cases same
        refine ⟨lowest, ⟨fun extent member => ?_, fun page now => ?_, fun page was => ?_⟩, free₁ rfl⟩
        · rw [extents] at member
          exact grown₁.extents extent member
        · rw [maps] at now
          exact grown₁.adds page now
        · rw [maps]
          exact grown₁.keeps page was

theorem Rooted.mmuUnmapUserRegion (rooted : Rooted mm.space)
    (ran : mmuUnmapUserRegion mm start size = .ok (found, mm')) :
    Rooted mm'.space ∧ (∀ page, mm'.space.maps page = true → mm.space.maps page = true) ∧
      (∀ extent ∈ mm'.space.extents, extent ∈ mm.space.extents) ∧
      (inWindow start size = true → Clear mm'.space.extents start size) ∧
      (Tracked mm.space → (inWindow start size = true → Uncut mm.space start size) → Tracked mm'.space) := by
  unfold Mmu.mmuUnmapUserRegion at ran
  split at ran
  · rename_i refused
    cases ran
    exact ⟨rooted, fun _ => id, fun _ => id, fun window => by simp [window] at refused, fun tracked _ => tracked⟩
  · rename_i accepted
    simp only [Bool.not_eq_true', Bool.not_eq_false] at accepted
    obtain ⟨_, aligned, sized, _, limit⟩ := inWindow_iff.mp accepted
    obtain ⟨mm₁, pages, ran⟩ := bind_ok ran
    cases ran
    obtain ⟨rooted₁, extents₁, maps₁⟩ := rooted.unmapPages _ pages
    have kept : ∀ extent, extent ∈ (spaceReleaseOverlappingExtents mm₁.space start size).extents ↔
        extent ∈ mm.space.extents ∧ extent.overlaps start size = false := fun extent => by
      simp [spaceReleaseOverlappingExtents, extents₁]
    refine ⟨rooted₁.congr rfl rfl fun _ => id, fun page now => ((maps₁ page).mp now).1,
      fun extent member => ((kept extent).mp member).1, fun _ extent member => ((kept extent).mp member).2,
      fun tracked uncut => ⟨fun page now below => ?_, ?_, fun extent member => ?_⟩⟩
    · -- A page that is left was in an extent, which the range does not meet or cuts.
      obtain ⟨was, outside⟩ := (maps₁ page).mp now
      obtain ⟨extent, member, has⟩ := tracked.covered page was below
      refine ⟨extent, (kept extent).mpr ⟨member, ?_⟩, has⟩
      by_contra meets
      have inside := uncut accepted extent member (by simpa using meets) page was below has
      obtain ⟨i, bound, same⟩ := (page_in_range aligned sized limit (rooted.low page was)).mpr inside
      exact outside i bound same
    · show (mm₁.space.extents.filter _).Pairwise _
      rw [extents₁]
      exact tracked.apart.sublist List.filter_sublist
    · exact tracked.positive extent ((kept extent).mp member).1

theorem Uncut.grown {before after : Space} (uncut : Uncut before start size) (grown : Grown before after start' size')
    (beside : Beside start size start' size') (clear : Clear before.extents start' size') : Uncut after start size := by
  intro extent member meets page now below has
  have met := overlaps_iff.mp meets
  rcases grown.extents extent member with old | new
  · rcases grown.adds page now with was | place
    · exact uncut extent old meets page was below has
    · have apart := overlaps_eq_false.mp (clear extent old)
      unfold Extent.Has at has
      omega
  · unfold Beside at beside
    omega

theorem alignSize_alignSize (size : Nat) : alignSize (alignSize size) = alignSize size := by
  unfold alignSize pageSize
  omega

theorem mmuCopyUserPages_space (n : Nat) : ∀ {mm : Mm} {src dst : Nat}, (mmuCopyUserPages mm src dst n).space = mm.space := by
  induction n with
  | zero => exact fun {_ _ _} => rfl
  | succ n ih =>
    intro mm src dst
    rw [mmuCopyUserPages, ih]
    split <;> rfl

theorem Rooted.moveRegion {oldAddr newAddr oldAligned : Nat} {result : Except RemapErrno Nat} (rooted : Rooted mm.space)
    (ran : moveRegion mm oldAddr newAddr oldAligned = .ok (result, mm')) :
    Rooted mm'.space ∧ (Tracked mm.space → Uncut mm.space oldAddr oldAligned → Tracked mm'.space) := by
  unfold Mmu.moveRegion at ran
  obtain ⟨⟨_, mm₁⟩, unmapped, ran⟩ := bind_ok ran
  cases ran
  have same := @mmuCopyUserPages_space (oldAligned / pageSize) mm oldAddr newAddr
  obtain ⟨rooted', _, _, _, tracked'⟩ := Rooted.mmuUnmapUserRegion (by rw [same]; exact rooted) unmapped
  rw [same] at tracked'
  exact ⟨rooted', fun tracked uncut => tracked' tracked fun _ => uncut⟩

theorem Rooted.mapAndMove {oldAddr newAddr oldAligned newAligned : Nat} {result : Except RemapErrno Nat}
    (rooted : Rooted mm.space)
    (ran : (do
      let (mapped, mm) ← Mmu.mmuMapUserRegion mm newAddr newAligned prot
      if mapped then Mmu.moveRegion mm oldAddr newAddr oldAligned else return (.error .enomem, mm)) =
        .ok (result, mm')) :
    Rooted mm'.space ∧ (Tracked mm.space → Vacant mm.space newAddr newAligned → Uncut mm.space oldAddr oldAligned →
      Beside oldAddr oldAligned newAddr newAligned → Tracked mm'.space) := by
  obtain ⟨⟨mapped, mm₁⟩, region, ran⟩ := bind_ok ran
  obtain ⟨rooted₁, grown₁, tracked₁, _⟩ := rooted.mmuMapUserRegion region
  cases mapped with
  | false =>
    cases ran
    exact ⟨rooted₁, fun tracked vacant _ _ => tracked₁ tracked vacant⟩
  | true =>
    obtain ⟨rooted', tracked'⟩ := rooted₁.moveRegion ran
    refine ⟨rooted', fun tracked vacant uncut beside => tracked' (tracked₁ tracked vacant) ?_⟩
    have window : inWindow newAddr newAligned = true := by
      unfold Mmu.mmuMapUserRegion at region
      split at region
      · cases region
      · rename_i accepted
        simpa using accepted
    exact uncut.grown grown₁ beside (vacant window)

theorem Rooted.mmuRemapUserRegion {oldAddr oldSize newSize : Nat} {mayMove : Bool} {fixed : Option Nat}
    {result : Except RemapErrno Nat} (rooted : Rooted mm.space)
    (ran : mmuRemapUserRegion mm oldAddr oldSize newSize mayMove fixed = .ok (result, mm')) :
    Rooted mm'.space ∧ (Tracked mm.space → MayRemap mm.space oldAddr oldSize newSize fixed → Tracked mm'.space) := by
  unfold Mmu.mmuRemapUserRegion at ran
  rcases ite_eq_iff.mp ran with ⟨_, ran⟩ | ⟨_, ran⟩
  · cases ran
    exact ⟨rooted, fun tracked _ => tracked⟩
  rcases ite_eq_iff.mp ran with ⟨_, ran⟩ | ⟨_, ran⟩
  · cases ran
    exact ⟨rooted, fun tracked _ => tracked⟩
  rcases ite_eq_iff.mp ran with ⟨shrinks, ran⟩ | ⟨grows, ran⟩
  · -- The tail is unmapped.
    obtain ⟨⟨_, mm₁⟩, unmapped, ran⟩ := bind_ok ran
    cases ran
    obtain ⟨rooted', _, _, _, tracked'⟩ := rooted.mmuUnmapUserRegion unmapped
    exact ⟨rooted', fun tracked may => tracked' tracked fun _ => may.shrink shrinks⟩
  replace grows : alignSize oldSize < alignSize newSize := by omega
  rcases ite_eq_iff.mp ran with ⟨place, ran⟩ | ⟨place, ran⟩
  · -- The tail is mapped in place.
    have inPlace : growsInPlace mm.space oldAddr (alignSize oldSize) (alignSize newSize) = true := by
      simpa [growsInPlace] using place
    obtain ⟨⟨mapped, mm₁⟩, region, ran⟩ := bind_ok ran
    obtain ⟨rooted₁, _, tracked₁, _⟩ := rooted.mmuMapUserRegion region
    cases mapped <;> cases ran <;>
      exact ⟨rooted₁, fun tracked may => tracked₁ tracked (may.grow grows inPlace)⟩
  have moves : growsInPlace mm.space oldAddr (alignSize oldSize) (alignSize newSize) = false := by
    rw [Bool.eq_false_iff]
    intro inPlace
    exact place (by simpa [growsInPlace] using inPlace)
  rcases ite_eq_iff.mp ran with ⟨_, ran⟩ | ⟨_, ran⟩
  · cases ran
    exact ⟨rooted, fun tracked _ => tracked⟩
  rcases fixed with _ | addr
  · -- The region moves to the lowest gap.
    obtain ⟨⟨gap, mm₁⟩, anywhere, ran⟩ := bind_ok ran
    obtain ⟨rooted₁, tracked₁, found⟩ := rooted.mmuMapUserAnywhere anywhere
    dsimp only at ran
    split at ran
    · cases ran
      exact ⟨rooted₁, fun tracked _ => tracked₁ tracked⟩
    · rename_i newAddr
      obtain ⟨lowest, grown, _⟩ := found newAddr rfl
      obtain ⟨rooted', tracked'⟩ := rooted₁.moveRegion ran
      refine ⟨rooted', fun tracked may => tracked' (tracked₁ tracked) ?_⟩
      have move := may.move grows moves
      rw [alignSize_alignSize] at lowest grown
      exact move.old.grown grown (move.anywhere rfl newAddr lowest) (findGapFrom_clear tracked.apart lowest).2
  · rcases ite_eq_iff.mp ran with ⟨_, ran⟩ | ⟨_, ran⟩
    · cases ran
      exact ⟨rooted, fun tracked _ => tracked⟩
    -- The place is free, or it is unmapped first.
    rcases ite_eq_iff.mp ran with ⟨free, ran⟩ | ⟨taken, ran⟩
    · obtain ⟨rooted', tracked'⟩ := rooted.mapAndMove ran
      refine ⟨rooted', fun tracked may => ?_⟩
      have move := may.move grows moves
      exact tracked' tracked (move.free addr rfl free) move.old (move.apart addr rfl)
    · obtain ⟨⟨_, mm₁⟩, unmapped, ran⟩ := bind_ok ran
      obtain ⟨rooted₁, shrunk, fewer, clear, tracked₁⟩ := rooted.mmuUnmapUserRegion unmapped
      obtain ⟨rooted', tracked'⟩ := rooted₁.mapAndMove ran
      refine ⟨rooted', fun tracked may => ?_⟩
      have move := may.move grows moves
      have uncut : Uncut mm₁.space oldAddr (alignSize oldSize) := fun extent member meets page now below has =>
        move.old extent (fewer extent member) meets page (shrunk page now) below has
      exact tracked' (tracked₁ tracked fun _ => move.taken addr rfl (by simpa using taken)) clear uncut
        (move.apart addr rfl)

theorem mmuMakePrivatePage_maps {forceCopy : Bool} (ran : mmuMakePrivatePage mm va forceCopy = .ok (found, mm')) :
    mm'.space.l2Tables = mm.space.l2Tables ∧ mm'.space.l3Tables = mm.space.l3Tables ∧
      mm'.space.extents = mm.space.extents ∧ ∀ page, mm'.space.maps page = mm.space.maps page := by
  have rewritten : ∀ oldPa newPa page,
      ({ mm.space with leaves := mm.space.leaves.mapValues (rewritePte oldPa newPa) } : Space).maps page =
        mm.space.maps page := fun oldPa newPa page => by
    simp [Space.maps]
  unfold mmuMakePrivatePage at ran
  split at ran
  · cases ran
    exact ⟨rfl, rfl, rfl, fun _ => rfl⟩
  · split at ran
    · cases ran
      exact ⟨rfl, rfl, rfl, fun _ => rfl⟩
    · split at ran
      · cases ran
        exact ⟨rfl, rfl, rfl, rewritten _ _⟩
      · obtain ⟨⟨newPa, buddy⟩, _, ran⟩ := bind_ok ran
        dsimp only [mmuRewriteSpacePaMappings] at ran
        split at ran
        · obtain ⟨freed, _, ran⟩ := bind_ok ran
          cases ran
          exact ⟨rfl, rfl, rfl, rewritten _ _⟩
        · obtain ⟨freed, _, ran⟩ := bind_ok ran
          cases ran
          exact ⟨rfl, rfl, rfl, rewritten _ _⟩

theorem mmuAliasUserRegion_absent {aliasStart srcStart : Nat} (absent : validPte mm.space srcStart = none)
    (ran : mmuAliasUserRegion mm aliasStart srcStart size prot = .ok (found, mm')) : mm' = mm := by
  unfold mmuAliasUserRegion at ran
  split at ran
  · cases ran
    rfl
  · cases count : size / pageSize with
    | zero =>
      rw [count] at ran
      cases ran
      rfl
    | succ n =>
      rw [count, aliasPages, absent] at ran
      cases ran
      rfl

theorem cloneLeaves_maps (entries : List (Nat × Pte)) : ∀ {child child' : Mm} {parent parent' : Space} {shared : Bool},
    Rooted child.space → Rooted parent → (∀ entry ∈ entries, parent.maps entry.1 = true) →
    cloneLeaves child parent entries = .ok (shared, child', parent') →
    Rooted child'.space ∧ child'.space.extents = child.space.extents ∧
      (∀ page, child'.space.maps page = true → child.space.maps page = true ∨ parent.maps page = true) ∧
      Rooted parent' ∧ parent'.extents = parent.extents ∧ ∀ page, parent'.maps page = parent.maps page := by
  induction entries with
  | nil =>
    intro child child' parent parent' shared rooted rootedParent _ ran
    cases ran
    exact ⟨rooted, rfl, fun _ => Or.inl, rootedParent, rfl, fun _ => rfl⟩
  | cons entry rest ih =>
    intro child child' parent parent' shared rooted rootedParent members ran
    obtain ⟨page, pte⟩ := entry
    have present : parent.maps page = true := members _ List.mem_cons_self
    have low := rootedParent.low page present
    rw [cloneLeaves] at ran
    obtain ⟨⟨ready, child₁⟩, ensured, ran⟩ := bind_ok ran
    obtain ⟨rooted₁, leaves₁, extents₁, table⟩ := rooted.ensureL3 ensured
    have maps₁ : ∀ page, child₁.space.maps page = child.space.maps page := fun page => by
      rw [Space.maps, Space.maps, leaves₁]
    dsimp only at ran
    cases ready with
    | false =>
      cases ran
      exact ⟨rooted₁, extents₁, fun page now => Or.inl (by rw [← maps₁]; exact now), rootedParent, rfl, fun _ => rfl⟩
    | true =>
      simp only [Bool.not_true, Bool.false_eq_true, if_false] at ran
      obtain ⟨rooted₂, maps₂⟩ := rooted₁.setLeaf (table rfl) (cowPte pte)
      rw [pageIndex_mul low] at rooted₂ maps₂
      have same : ∀ other, ({ parent with leaves := parent.leaves.set page (cowPte pte) } : Space).maps other =
          parent.maps other := fun other => by
        simp only [Space.maps, SortedMap.get?_set]
        split
        · rename_i its
          rw [its]
          exact present.symm
        · rfl
      have rootedParent₂ : Rooted { parent with leaves := parent.leaves.set page (cowPte pte) } :=
        rootedParent.congr rfl rfl fun other now => by rw [← same]; exact now
      obtain ⟨rooted', extents', maps', rootedParent', extentsParent', mapsParent'⟩ :=
        @ih { child₁.setLeaf page (cowPte pte) with buddy := physRetainPage child₁.buddy pte.pa } _ _ _ _ rooted₂
          rootedParent₂ (fun entry member => by rw [same]; exact members entry (List.mem_cons_of_mem _ member)) ran
      refine ⟨rooted', extents'.trans extents₁, fun other now => ?_, rootedParent', extentsParent',
        fun other => (mapsParent' other).trans (same other)⟩
      rcases maps' other now with mine | its
      · rcases (maps₂ other).mp mine with rfl | before
        · exact Or.inr present
        · exact Or.inl (by rw [← maps₁]; exact before)
      · exact Or.inr (by rw [← same]; exact its)

theorem copyStack_maps (n : Nat) : ∀ {child child' : Mm} {cur : Nat}, copyStack child cur n = .ok child' →
    child'.space.l2Tables = child.space.l2Tables ∧ child'.space.l3Tables = child.space.l3Tables ∧
      child'.space.extents = child.space.extents ∧ ∀ page, child'.space.maps page = child.space.maps page := by
  induction n with
  | zero =>
    intro child child' cur ran
    cases ran
    exact ⟨rfl, rfl, rfl, fun _ => rfl⟩
  | succ n ih =>
    intro child child' cur ran
    rw [copyStack] at ran
    split at ran
    · obtain ⟨⟨done, child₁⟩, made, ran⟩ := bind_ok ran
      obtain ⟨upper₁, lower₁, extents₁, maps₁⟩ := mmuMakePrivatePage_maps made
      obtain ⟨upper', lower', extents', maps'⟩ := ih ran
      exact ⟨upper'.trans upper₁, lower'.trans lower₁, extents'.trans extents₁,
        fun page => (maps' page).trans (maps₁ page)⟩
    · exact ih ran

end

/-- Every space in use is rooted and tracked. -/
def State.Tracks (s : State) : Prop := ∀ i space, s.spaces i = some space → Rooted space ∧ Tracked space

section

variable {s s' : State} {i : Nat} {mm : Mm} {space : Space}

theorem emptySpace_tracked (rootPa : Nat) : Rooted (emptySpace rootPa) ∧ Tracked (emptySpace rootPa) :=
  ⟨⟨nofun, nofun, nofun⟩, ⟨nofun, List.Pairwise.nil, nofun⟩⟩

theorem State.Tracks.update (tracks : s.Tracks) (i : Nat) (others : ∀ j, j ≠ i → s'.spaces j = s.spaces j)
    (mine : ∀ space, s'.spaces i = some space → Rooted space ∧ Tracked space) : s'.Tracks := by
  intro j space here
  by_cases same : j = i
  · subst same
    exact mine space here
  · rw [others j same] at here
    exact tracks j space here

theorem State.Tracks.put (tracks : s.Tracks) (mine : Rooted mm.space ∧ Tracked mm.space) : (s.put i mm).Tracks :=
  tracks.update i (fun _ => put_spaces_of_ne s mm) fun space here => by
    rw [put_spaces_self] at here
    cases here
    exact mine

theorem State.Tracks.onSpace {α : Type} {failed result : α} {call : Mm → Except Halt (α × Mm)} (tracks : s.Tracks)
    (keeps : ∀ space mm', s.spaces i = some space → Rooted space → Tracked space →
      call (s.mm space) = .ok (result, mm') → Rooted mm'.space ∧ Tracked mm'.space)
    (ran : Mmu.onSpace s i failed call = .ok (result, s')) : s'.Tracks := by
  rcases onSpace_cases ran with rfl | ⟨space, mm', here, called, rfl⟩
  · exact tracks
  · obtain ⟨rooted, tracked⟩ := tracks i space here
    exact tracks.put (keeps space mm' here rooted tracked called)

theorem State.Tracks.mapTrampoline {mapped : Bool} (tracks : s.Tracks) (here : s.spaces i = some space)
    (ran : mapTrampoline s i space = .ok (mapped, s')) : s'.Tracks := by
  obtain ⟨rooted, tracked⟩ := tracks i space here
  rcases mapTrampoline_cases ran with ⟨_, rfl⟩ | ⟨pa, buddy, memory, found, mm, _, raw, rest⟩
  · exact tracks
  · obtain ⟨rooted', extents', _, adds, _⟩ :=
      @Rooted.mapUserPagesRaw _ _ _ 1 ⟨buddy, memory, space⟩ _ _ rooted (by decide) raw
    have tracked' : Tracked mm.space := tracked.congr extents' fun page now below => by
      rcases adds page now with was | ⟨i, first, rfl⟩
      · exact was
      · have zero : i = 0 := by omega
        rw [zero] at below
        exact absurd below (by decide)
    have put : (s.put i mm).Tracks := tracks.put ⟨rooted', tracked'⟩
    rcases rest with ⟨_, _, rfl⟩ | ⟨_, _, freed, _, rfl⟩
    · exact put
    · exact put

theorem State.Tracks.mmuSpaceCloneCow {parent stackCopyStart : Nat} {created : Option Nat} (tracks : s.Tracks)
    (bare : ∀ space, s.spaces parent = some space → ∀ page, space.maps page = true →
      mmuUserSigtrampVa ≤ page * pageSize)
    (ran : mmuSpaceCloneCow s parent stackCopyStart = .ok (created, s')) : s'.Tracks := by
  rcases mmuSpaceCloneCow_cases ran with ⟨_, rfl⟩ | ⟨space, i, s₁, root, mapped, child, parentSpace, here, creation,
    found, cloned, rest⟩
  · exact tracks
  rcases mmuSpaceCreate_cases creation with ⟨no, _⟩ | ⟨_, pa, buddy, same, _, free, _, after⟩
  · cases no
  cases same
  have apart : parent ≠ i := by
    rintro rfl
    rw [free] at here
    cases here
  have isRoot : root = emptySpace pa := by
    rw [after] at found
    simpa using found.symm
  obtain ⟨rooted, tracked⟩ := tracks parent space here
  have rootedChild : Rooted { root with mmapBase := space.mmapBase } := by
    rw [isRoot]
    exact (emptySpace_tracked pa).1.congr rfl rfl fun _ => id
  obtain ⟨rooted', extents', maps', rootedParent, extentsParent, mapsParent⟩ :=
    @cloneLeaves_maps space.leaves.entries { s₁.mm root with space := { root with mmapBase := space.mmapBase } } _ _ _ _
      rootedChild rooted (fun entry member => by
        rw [Space.maps, SortedMap.get?_eq_some.mpr member]
        rfl) cloned
  have trackedParent : Tracked parentSpace := tracked.congr extentsParent fun page now _ => by
    rw [← mapsParent]
    exact now
  have noExtents : child.space.extents = [] := by
    rw [extents', isRoot]
    rfl
  -- The child maps no page below the trampoline, as its parent does not.
  have trackedChild : Tracked child.space := by
    refine ⟨fun page now below => ?_, by rw [noExtents]; exact List.Pairwise.nil, by rw [noExtents]; intro _ member; cases member⟩
    rcases maps' page now with mine | its
    · rw [isRoot] at mine
      cases mine
    · exact absurd (bare space here page its) (by omega)
  have tracks₂ : State.Tracks { s₁ with spaces := Function.update s₁.spaces parent (some parentSpace) } := by
    have tracks₁ : s₁.Tracks := tracks.update i (fun j other => by
        rw [after]
        exact Function.update_of_ne other _ _) fun space' here' => by
      cases found.symm.trans here'
      rw [isRoot]
      exact emptySpace_tracked pa
    refine tracks₁.update parent (fun j other => Function.update_of_ne other _ _) fun space' here' => ?_
    cases (Function.update_self parent (some parentSpace) s₁.spaces).symm.trans here'
    exact ⟨rootedParent, trackedParent⟩
  rcases rest with ⟨_, _, destroyed⟩ | ⟨_, _, child', copied, rfl⟩
  · unfold mmuSpaceDestroy at destroyed
    rw [put_spaces_self] at destroyed
    obtain ⟨freed, _, destroyed⟩ := bind_ok destroyed
    cases destroyed
    refine tracks₂.update i (fun j other => ?_) fun space' here' => ?_
    · exact (Function.update_of_ne other _ _).trans (Function.update_of_ne other _ _)
    · dsimp only at here'
      rw [Function.update_self] at here'
      cases here'
  · obtain ⟨upper, lower, extents, maps⟩ := copyStack_maps _ copied
    exact tracks₂.put ⟨rooted'.congr upper lower fun page now => by rw [← maps]; exact now,
      trackedChild.congr extents fun page now _ => by rw [← maps]; exact now⟩

theorem call_tracks {call : Call} (tracks : s.Tracks) (may : MayTrack s call) (ran : s.call call = .ok s') :
    s'.Tracks := by
  cases call with
  | create =>
    obtain ⟨⟨created, s₁⟩, made, ran⟩ := bind_ok ran
    cases ran
    rcases mmuSpaceCreate_cases made with ⟨_, rfl⟩ | ⟨i, pa, buddy, _, _, _, _, rfl⟩
    · exact tracks
    · refine tracks.update i (fun j other => Function.update_of_ne other _ _) fun space here => ?_
      cases (Function.update_self i (some (emptySpace pa)) s.spaces).symm.trans here
      exact emptySpace_tracked pa
  | trampoline i =>
    obtain ⟨⟨mapped, s₁⟩, made, ran⟩ := bind_ok ran
    cases ran
    unfold mmuSpaceMapSignalTrampoline at made
    split at made
    · cases made
      exact tracks
    · rename_i space here
      exact tracks.mapTrampoline here made
  | map i start size prot =>
    obtain ⟨⟨mapped, s₁⟩, made, ran⟩ := bind_ok ran
    cases ran
    refine tracks.onSpace (fun space mm' here rooted tracked called => ?_) made
    obtain ⟨rooted', _, tracked', _⟩ := Rooted.mmuMapUserRegion rooted called
    exact ⟨rooted', tracked' tracked (may space here)⟩
  | mapAnywhere i size prot =>
    obtain ⟨⟨mapped, s₁⟩, made, ran⟩ := bind_ok ran
    cases ran
    refine tracks.onSpace (fun space mm' here rooted tracked called => ?_) made
    obtain ⟨rooted', tracked', _⟩ := Rooted.mmuMapUserAnywhere rooted called
    exact ⟨rooted', tracked' tracked⟩
  | aliasRegion i aliasStart srcStart size prot =>
    obtain ⟨⟨mapped, s₁⟩, made, ran⟩ := bind_ok ran
    cases ran
    refine tracks.onSpace (fun space mm' here rooted tracked called => ?_) made
    rw [mmuAliasUserRegion_absent (may space here) called]
    exact ⟨rooted, tracked⟩
  | unmap i start size =>
    obtain ⟨⟨mapped, s₁⟩, made, ran⟩ := bind_ok ran
    cases ran
    refine tracks.onSpace (fun space mm' here rooted tracked called => ?_) made
    obtain ⟨rooted', _, _, _, tracked'⟩ := Rooted.mmuUnmapUserRegion rooted called
    exact ⟨rooted', tracked' tracked (may space here)⟩
  | remap i oldAddr oldSize newSize mayMove fixed =>
    obtain ⟨⟨result, s₁⟩, made, ran⟩ := bind_ok ran
    cases ran
    refine tracks.onSpace (fun space mm' here rooted tracked called => ?_) made
    obtain ⟨rooted', tracked'⟩ := Rooted.mmuRemapUserRegion rooted called
    exact ⟨rooted', tracked' tracked (may space here)⟩
  | clone parent stackCopyStart =>
    obtain ⟨⟨created, s₁⟩, made, ran⟩ := bind_ok ran
    cases ran
    exact tracks.mmuSpaceCloneCow may made
  | destroy i =>
    change mmuSpaceDestroy s i = .ok s' at ran
    unfold mmuSpaceDestroy at ran
    split at ran
    · cases ran
      exact tracks
    · obtain ⟨freed, _, ran⟩ := bind_ok ran
      cases ran
      refine tracks.update i (fun j other => Function.update_of_ne other _ _) fun space here => ?_
      cases (Function.update_self i none s.spaces).symm.trans here
  | fault i far wnr =>
    obtain ⟨⟨handled, s₁⟩, made, ran⟩ := bind_ok ran
    cases ran
    refine tracks.onSpace (fun space mm' here rooted tracked called => ?_) made
    unfold mmuHandleUserFault at called
    split at called
    · cases called
      exact ⟨rooted, tracked⟩
    · obtain ⟨upper, lower, extents, maps⟩ := mmuMakePrivatePage_maps called
      have before : ∀ page, mm'.space.maps page = true → space.maps page = true := fun page now => (maps page).symm.trans now
      exact ⟨rooted.congr upper lower before, tracked.congr extents fun page now _ => before page now⟩

theorem run_tracks {buddy : Buddy} {memory : Bytes} (run : Run State.call MayTrack (mmuInit buddy memory) s) :
    s.Tracks := by
  have start : (mmuInit buddy memory).Tracks := nofun
  exact Run.invariant start (fun tracks may ran => call_tracks tracks may ran) run

/-- In every run under the discipline the extents of each space are in order and apart and hold every page mapped below the trampoline, and no region mapped anywhere was mapped before. -/
theorem run_tracked {buddy : Buddy} {memory : Bytes} (run : Run State.call MayTrack (mmuInit buddy memory) s)
    (here : s.spaces i = some space) :
    Tracked space ∧ ∀ size prot start mm', mmuMapUserAnywhere (s.mm space) size prot = .ok (some start, mm') →
      ∀ page, start ≤ page * pageSize → page * pageSize < start + alignSize size → space.maps page = false := by
  obtain ⟨rooted, tracked⟩ := run_tracks run i space here
  refine ⟨tracked, fun size prot start mm' ran => ?_⟩
  obtain ⟨_, _, found⟩ := Rooted.mmuMapUserAnywhere rooted ran
  exact (found start rfl).2.2

end

/-- Two pages are mapped in one block, and a block is mapped in the lowest gap behind them. -/
def twoRegions : List Call :=
  [.create, .trampoline 0, .map 0 mmuUserBase (2 * pageSize) ⟨true, false⟩, .mapAnywhere 0 pageSize ⟨true, false⟩]

/-- A test for the discipline on calls that map regions. -/
def State.mapsVacant (s : State) : Call → Bool
  | .create | .trampoline _ | .mapAnywhere .. => true
  | .map i start size _ => (s.spaces i).all fun space => space.extents.all fun extent => !extent.overlaps start size
  | _ => false

theorem State.mapsVacant_may {s : State} {call : Call} (vacant : s.mapsVacant call = true) : MayTrack s call := by
  cases call with
  | map i start size prot =>
    intro space here _ extent member
    simp only [State.mapsVacant, here, Option.all_some, List.all_eq_true] at vacant
    simpa using vacant extent member
  | create | trampoline | mapAnywhere => trivial
  | _ => cases vacant

/-- A space with a region that was mapped anywhere is reached by a run under the discipline. -/
theorem run_tracked_twoRegions :
    ∃ s space, Run State.call MayTrack emptyBoot.state s ∧ s.spaces 0 = some space ∧
      space.maps (pageIndex (mmuUserBase + 2 * pageSize)) = true ∧ Tracked space := by
  have found : (runList State.call (fun s call => s.mapsVacant call = true) emptyBoot.state twoRegions).any
      (fun s => (s.spaces 0).any fun space => space.maps (pageIndex (mmuUserBase + 2 * pageSize))) = true := by
    decide +kernel
  obtain ⟨s, run, mapped⟩ := runList_any found
  have disciplined := run.mono fun _ _ vacant => State.mapsVacant_may vacant
  cases here : s.spaces 0 with
  | none => simp [here] at mapped
  | some space =>
    rw [here, Option.any_some] at mapped
    exact ⟨s, space, disciplined, here, mapped, (run_tracked disciplined here).1⟩

/-- Two pages are mapped in one block, and the first of them is unmapped. -/
def cutExtent : List Call :=
  [.create, .map 0 mmuUserBase (2 * pageSize) ⟨true, false⟩, .unmap 0 mmuUserBase pageSize]

/-- Without the discipline a page that stays mapped loses its extent. -/
theorem run_not_tracked :
    ¬ ∀ (buddy : Buddy) (memory : Bytes) (s : State), Run State.call (fun _ _ => True) (mmuInit buddy memory) s →
      ∀ i space, s.spaces i = some space → Tracked space := by
  intro claim
  have found : (runList State.call (fun _ _ => True) emptyBoot.state cutExtent).any
      (fun s => (s.spaces 0).any fun space =>
        space.maps (pageIndex (mmuUserBase + pageSize)) && space.extents.isEmpty) = true := by
    decide +kernel
  obtain ⟨s, run, left⟩ := runList_any found
  cases here : s.spaces 0 with
  | none => simp [here] at left
  | some space =>
    simp only [here, Option.any_some, Bool.and_eq_true, List.isEmpty_iff] at left
    obtain ⟨extent, member, _⟩ := (claim _ _ s run 0 space here).covered _ left.1 (by decide)
    rw [left.2] at member
    cases member

end Enlil.Mmu
