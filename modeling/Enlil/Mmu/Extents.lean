import Enlil.Mmu.Fits
import Enlil.Mmu.RegionAccounts

/-! Extents that describe the mapped pages of the window, and the calls on one space that keep them so. -/

namespace Enlil.Mmu

open Pmm

/-- Whether a page number has a valid leaf. -/
def Space.maps (space : Space) (page : Nat) : Bool := (space.leaves.get? page).isSome

/-- Every leaf is in a table, and every table below another one. -/
structure Rooted (space : Space) : Prop where
  low : ∀ page, space.maps page = true → page < 2 ^ 27
  parent : ∀ index, space.has3 index = true → space.has2 (index / 2 ^ 9) = true
  table : ∀ page, space.maps page = true → space.has3 (page / 2 ^ 9) = true

/-- Whether a range holds an address. -/
def Extent.Has (extent : Extent) (va : Nat) : Prop := extent.va ≤ va ∧ va < extent.stop

/-- The extents of a space are in order and apart, and every page mapped below the trampoline is in one of them. -/
structure Tracked (space : Space) : Prop where
  covered : ∀ page, space.maps page = true → page * pageSize < mmuUserSigtrampVa →
    ∃ extent ∈ space.extents, extent.Has (page * pageSize)
  apart : space.extents.Pairwise fun first second => first.stop ≤ second.va
  positive : ∀ extent ∈ space.extents, 0 < extent.pages

/-- Extents that a range does not meet. -/
def Clear (extents : List Extent) (start size : Nat) : Prop := ∀ extent ∈ extents, extent.overlaps start size = false

/-- What a call that maps in a range adds to a space: extents and pages of the range only. -/
structure Grown (before after : Space) (start size : Nat) : Prop where
  extents : ∀ extent ∈ after.extents, extent ∈ before.extents ∨ (start ≤ extent.va ∧ extent.stop ≤ start + size)
  adds : ∀ page, after.maps page = true →
    before.maps page = true ∨ (start ≤ page * pageSize ∧ page * pageSize < start + size)
  keeps : ∀ page, before.maps page = true → after.maps page = true

section

variable {mm mm' : Mm} {space : Space} {va pa page start size : Nat} {found : Bool} {prot : Prot} {extent : Extent}
  {extents : List Extent}

theorem Rooted.validPte_eq (rooted : Rooted space) (va : Nat) :
    validPte space va = space.leaves.get? (pageIndex va) := by
  unfold validPte mmuLookupPte
  split
  · rfl
  · rename_i absent
    cases leaf : space.leaves.get? (pageIndex va) with
    | none => rfl
    | some pte =>
      have lower := rooted.table (pageIndex va) (by rw [Space.maps, leaf]; rfl)
      have upper := rooted.parent _ lower
      rw [pageIndex_div] at lower upper
      rw [l3Index_div] at upper
      simp only [Space.has2, Space.has3] at lower upper
      simp [lower, upper] at absent

theorem insertExtent_sorted (sorted : extents.Pairwise fun first second => first.stop ≤ second.va)
    (positive : 0 < extent.pages)
    (apart : ∀ other ∈ extents, 0 < other.pages ∧ (other.stop ≤ extent.va ∨ extent.stop ≤ other.va)) :
    (extents.rdropWhile (fun other => extent.va < other.va) ++
      extent :: extents.rtakeWhile (fun other => extent.va < other.va)).Pairwise
        fun first second => first.stop ≤ second.va := by
  have whole := List.rdropWhile_append_rtakeWhile (p := fun other : Extent => decide (extent.va < other.va)) (l := extents)
  have above : ∀ other ∈ extents.rtakeWhile (fun other => extent.va < other.va), extent.va < other.va :=
    fun other member => by simpa using List.mem_rtakeWhile_imp member
  have last := List.rdropWhile_last_not (fun other : Extent => decide (extent.va < other.va)) extents
  generalize extents.rdropWhile (fun other => extent.va < other.va) = before at *
  generalize extents.rtakeWhile (fun other => extent.va < other.va) = after at *
  subst whole
  obtain ⟨sortedBefore, sortedAfter, across⟩ := List.pairwise_append.mp sorted
  have size : ∀ other : Extent, 0 < other.pages → other.va < other.stop := fun other some => by
    unfold Extent.stop pageSize
    omega
  have mine := size extent positive
  -- The last extent in front does not start above the new one, and the others in front end before it.
  have below : ∀ other ∈ before, other.stop ≤ extent.va := by
    intro other member
    have nonempty : before ≠ [] := List.ne_nil_of_mem member
    have final := last nonempty
    simp only [decide_eq_true_eq, not_lt] at final
    have lastMember := List.getLast_mem nonempty
    obtain ⟨some, disjoint⟩ := apart _ (List.mem_append_left _ lastMember)
    have ends := size _ some
    by_cases same : other = before.getLast nonempty
    · rw [same]
      omega
    · have split := List.dropLast_append_getLast nonempty
      have inFront : other ∈ before.dropLast := by
        rw [← split, List.mem_append, List.mem_singleton] at member
        exact member.resolve_right same
      rw [← split] at sortedBefore
      have order := (List.pairwise_append.mp sortedBefore).2.2 other inFront _ (List.mem_singleton_self _)
      omega
  refine List.pairwise_append.mpr ⟨sortedBefore, List.pairwise_cons.mpr ⟨fun other member => ?_, sortedAfter⟩,
    fun first member second inAfter => ?_⟩
  · obtain ⟨some, disjoint⟩ := apart _ (List.mem_append_right _ member)
    have ends := size _ some
    have start := above other member
    omega
  · rcases List.mem_cons.mp inAfter with rfl | inAfter
    · exact below first member
    · exact across first member second inAfter

theorem mem_insertExtent {other : Extent} : other ∈ extents.rdropWhile (fun seen => extent.va < seen.va) ++
    extent :: extents.rtakeWhile (fun seen => extent.va < seen.va) ↔ other = extent ∨ other ∈ extents := by
  have whole := List.rdropWhile_append_rtakeWhile (p := fun seen : Extent => decide (extent.va < seen.va)) (l := extents)
  constructor
  · intro member
    rcases List.mem_append.mp member with inFront | behind
    · exact Or.inr (whole ▸ List.mem_append_left _ inFront)
    · rcases List.mem_cons.mp behind with same | behind
      · exact Or.inl same
      · exact Or.inr (whole ▸ List.mem_append_right _ behind)
  · rintro (rfl | member)
    · exact List.mem_append_right _ List.mem_cons_self
    · rw [← whole] at member
      rcases List.mem_append.mp member with inFront | behind
      · exact List.mem_append_left _ inFront
      · exact List.mem_append_right _ (List.mem_cons_of_mem _ behind)

theorem Rooted.ensureL3 (rooted : Rooted mm.space) (ran : spaceEnsureL3 mm va = .ok (found, mm')) :
    Rooted mm'.space ∧ mm'.space.leaves = mm.space.leaves ∧ mm'.space.extents = mm.space.extents ∧
      (found = true → mm'.space.has3 (l3Index va) = true) := by
  obtain ⟨found₂, mm₂, upper, rest⟩ := spaceEnsureL3_cases ran
  obtain ⟨_, leaves, extents, _⟩ := spaceEnsureL3_frame ran
  have first : mm₂.space.leaves = mm.space.leaves ∧ mm₂.space.l3Tables = mm.space.l3Tables ∧
      (∀ index, mm.space.has2 index = true → mm₂.space.has2 index = true) ∧
      (found₂ = true → mm₂.space.has2 (l1Index va) = true) := by
    rcases spaceEnsureL2_cases upper with ⟨present, rfl, rfl⟩ | ⟨absent, pa, buddy, _, ⟨_, rfl, _, _, rfl⟩ | ⟨_, rfl, rfl⟩⟩
    · exact ⟨rfl, rfl, fun _ has => has, fun _ => present⟩
    · exact ⟨rfl, rfl, fun _ has => has, nofun⟩
    · refine ⟨rfl, rfl, fun index has => ?_, fun _ => by simp [Space.has2]⟩
      simp only [Space.has2, SortedMap.get?_set] at has ⊢
      split
      · rfl
      · exact has
  obtain ⟨leaves₂, same3, keeps2, has2⟩ := first
  have rooted₂ : Rooted mm₂.space := by
    refine ⟨fun page mapped => ?_, fun index has => keeps2 _ (rooted.parent index ?_), fun page mapped => ?_⟩
    · rw [Space.maps, leaves₂] at mapped
      exact rooted.low page mapped
    · rw [Space.has3, ← same3]
      exact has
    · rw [Space.has3, same3]
      rw [Space.maps, leaves₂] at mapped
      exact rooted.table page mapped
  rcases rest with ⟨_, rfl, rfl⟩ | ⟨_, present, rfl, rfl⟩ | ⟨yes, absent, pa, buddy, _, ⟨_, rfl, _, _, rfl⟩ | ⟨_, rfl, rfl⟩⟩
  · exact ⟨rooted₂, leaves, extents, nofun⟩
  · exact ⟨rooted₂, leaves, extents, fun _ => present⟩
  · exact ⟨⟨rooted₂.low, rooted₂.parent, rooted₂.table⟩, leaves, extents, nofun⟩
  · refine ⟨⟨rooted₂.low, fun index has => ?_, fun page mapped => ?_⟩, leaves, extents, fun _ => by simp [Space.has3]⟩
    · simp only [Space.has3, SortedMap.get?_set] at has
      split at has
      · rename_i same
        rw [same, l3Index_div]
        exact has2 yes
      · exact rooted₂.parent index has
    · have before := rooted₂.table page mapped
      simp only [Space.has3, SortedMap.get?_set] at before ⊢
      split
      · rfl
      · exact before

theorem Rooted.setLeaf (rooted : Rooted mm.space) (table : mm.space.has3 (l3Index va) = true) (pte : Pte) :
    Rooted (mm.setLeaf (pageIndex va) pte).space ∧
      ∀ page, (mm.setLeaf (pageIndex va) pte).space.maps page = true ↔
        page = pageIndex va ∨ mm.space.maps page = true := by
  have maps : ∀ page, (mm.setLeaf (pageIndex va) pte).space.maps page = true ↔
      page = pageIndex va ∨ mm.space.maps page = true := fun page => by
    simp only [Mm.setLeaf, Space.maps, SortedMap.get?_set]
    split <;> simp_all
  refine ⟨⟨fun page mapped => ?_, rooted.parent, fun page mapped => ?_⟩, maps⟩
  · rcases (maps page).mp mapped with rfl | before
    · exact pageIndex_lt va
    · exact rooted.low page before
  · rcases (maps page).mp mapped with rfl | before
    · rw [pageIndex_div]
      exact table
    · exact rooted.table page before

theorem Rooted.mapUserPagesRaw (n : Nat) : ∀ {mm : Mm} {va pa : Nat}, Rooted mm.space → n ≤ 2 ^ 27 →
    mapUserPagesRaw mm va pa prot n = .ok (found, mm') →
    Rooted mm'.space ∧ mm'.space.extents = mm.space.extents ∧
      (∀ page, mm.space.maps page = true → mm'.space.maps page = true) ∧
      (∀ page, mm'.space.maps page = true → mm.space.maps page = true ∨ ∃ i < n, page = pageIndex (va + i * pageSize)) ∧
      (found = true → ∀ i < n, mm.space.maps (pageIndex (va + i * pageSize)) = false ∧
        mm'.space.maps (pageIndex (va + i * pageSize)) = true) := by
  induction n with
  | zero =>
    intro mm va pa rooted _ ran
    cases ran
    exact ⟨rooted, rfl, fun _ => id, fun _ => Or.inl, fun _ _ below => absurd below (Nat.not_lt_zero _)⟩
  | succ n ih =>
    intro mm va pa rooted bound ran
    rw [Mmu.mapUserPagesRaw] at ran
    obtain ⟨⟨ready, mm₁⟩, ensured, ran⟩ := bind_ok ran
    obtain ⟨rooted₁, leaves₁, extents₁, table⟩ := rooted.ensureL3 ensured
    have maps₁ : ∀ page, mm₁.space.maps page = mm.space.maps page := fun page => by rw [Space.maps, Space.maps, leaves₁]
    have unchanged : Rooted mm₁.space ∧ mm₁.space.extents = mm.space.extents ∧
        (∀ page, mm.space.maps page = true → mm₁.space.maps page = true) ∧
        (∀ page, mm₁.space.maps page = true →
          mm.space.maps page = true ∨ ∃ i < n + 1, page = pageIndex (va + i * pageSize)) :=
      ⟨rooted₁, extents₁, fun page => by rw [maps₁]; exact id, fun page => by rw [maps₁]; exact Or.inl⟩
    obtain ⟨_, _, keeps, adds⟩ := unchanged
    dsimp only at ran
    cases ready with
    | false =>
      cases ran
      exact ⟨rooted₁, extents₁, keeps, adds, fun yes => by cases yes⟩
    | true =>
      simp only [Bool.not_true, Bool.false_eq_true, if_false] at ran
      split at ran
      · cases ran
        exact ⟨rooted₁, extents₁, keeps, adds, fun yes => by cases yes⟩
      · rename_i absent
        obtain ⟨rooted₂, maps₂⟩ := rooted₁.setLeaf (table rfl) (userLeaf pa prot)
        obtain ⟨rooted', extents', keeps', adds', all⟩ := ih rooted₂ (by omega) ran
        have next : ∀ i, va + pageSize + i * pageSize = va + (i + 1) * pageSize := fun i => by ring
        simp only [next] at adds' all
        refine ⟨rooted', extents'.trans extents₁, fun page mapped => keeps' page ((maps₂ page).mpr (Or.inr (keeps page mapped))),
          fun page mapped => ?_, fun yes i below => ?_⟩
        · rcases adds' page mapped with before | ⟨i, below, same⟩
          · rcases (maps₂ page).mp before with same | before
            · exact Or.inr ⟨0, by omega, by rw [same, Nat.zero_mul, Nat.add_zero]⟩
            · exact Or.inl (by rw [← maps₁]; exact before)
          · exact Or.inr ⟨i + 1, by omega, same⟩
        · rcases i with - | i
          · rw [Nat.zero_mul, Nat.add_zero]
            refine ⟨?_, keeps' _ ((maps₂ _).mpr (Or.inl rfl))⟩
            rw [← maps₁]
            simpa [Space.maps] using absent
          · obtain ⟨free, mapped⟩ := all yes i (by omega)
            refine ⟨?_, mapped⟩
            rw [← maps₁]
            by_contra was
            rw [(maps₂ _).mpr (Or.inr (by simpa using was))] at free
            cases free

theorem pageIndex_va (whole : va % pageSize = 0) (low : va < mmuUserLimit) : pageIndex va * pageSize = va := by
  unfold pageIndex mmuUserLimit pageSize at *
  omega

theorem overlaps_iff : extent.overlaps start size = true ↔ start < extent.stop ∧ extent.va < start + size := by
  simp [Extent.overlaps, and_comm]

theorem overlaps_eq_false : extent.overlaps start size = false ↔ extent.stop ≤ start ∨ start + size ≤ extent.va := by
  rw [Bool.eq_false_iff, Ne, overlaps_iff]
  omega

theorem Tracked.addExtent {space' : Space} (tracked : Tracked space) (positive : 0 < extent.pages)
    (whole : extent.va % pageSize = 0) (high : extent.stop ≤ mmuUserLimit)
    (clear : Clear space.extents extent.va (extent.pages * pageSize))
    (extents : space'.extents = space.extents.rdropWhile (fun other => extent.va < other.va) ++
      extent :: space.extents.rtakeWhile (fun other => extent.va < other.va))
    (adds : ∀ page, space'.maps page = true → space.maps page = true ∨
      ∃ i < extent.pages, page = pageIndex (extent.va + i * pageSize)) : Tracked space' := by
  refine ⟨fun page mapped below => ?_, ?_, fun other member => ?_⟩
  · rcases adds page mapped with before | ⟨i, inside, rfl⟩
    · obtain ⟨other, member, has⟩ := tracked.covered page before below
      exact ⟨other, by rw [extents]; exact mem_insertExtent.mpr (Or.inr member), has⟩
    · refine ⟨extent, by rw [extents]; exact mem_insertExtent.mpr (Or.inl rfl), ?_⟩
      rw [@pageIndex_va (extent.va + i * pageSize) (by unfold pageSize at *; omega)
        (by unfold Extent.stop pageSize at *; omega)]
      unfold Extent.Has Extent.stop pageSize
      omega
  · rw [extents]
    exact insertExtent_sorted tracked.apart positive fun other member =>
      ⟨tracked.positive other member, overlaps_eq_false.mp (clear other member)⟩
  · rw [extents] at member
    rcases mem_insertExtent.mp member with rfl | member
    · exact positive
    · exact tracked.positive other member

theorem Rooted.mapBlocks (fuel : Nat) : ∀ {mm : Mm} {va remaining : Nat}, Rooted mm.space → va % pageSize = 0 →
    va + remaining * pageSize ≤ mmuUserLimit → mapBlocks mm va remaining prot fuel = .ok (found, mm') →
    Rooted mm'.space ∧ Grown mm.space mm'.space va (remaining * pageSize) ∧
      (Tracked mm.space → Clear mm.space.extents va (remaining * pageSize) → Tracked mm'.space) ∧
      (found = true → ∀ i < remaining, mm.space.maps (pageIndex (va + i * pageSize)) = false) := by
  have still : ∀ {mm : Mm} {va remaining : Nat}, Grown mm.space mm.space va remaining := fun {_ _ _} =>
    ⟨fun _ => Or.inl, fun _ => Or.inl, fun _ => id⟩
  induction fuel with
  | zero =>
    intro mm va remaining rooted _ _ ran
    rw [Mmu.mapBlocks, Except.ok.injEq, Prod.mk.injEq] at ran
    obtain ⟨rfl, rfl⟩ := ran
    refine ⟨rooted, still, fun tracked _ => tracked, fun none i below => ?_⟩
    rw [decide_eq_true_eq] at none
    omega
  | succ fuel ih =>
    intro mm va remaining rooted whole high ran
    rw [Mmu.mapBlocks] at ran
    split at ran
    · cases ran
      exact ⟨rooted, still, fun tracked _ => tracked, fun _ i below => by omega⟩
    · have size := largestOrderFit_le maxOrder (show 2 ^ 0 ≤ remaining by omega)
      have positive := Nat.two_pow_pos (largestOrderFit remaining 0 maxOrder)
      generalize largestOrderFit remaining 0 maxOrder = order at *
      obtain ⟨⟨pa, buddy⟩, allocated, ran⟩ := bind_ok ran
      dsimp only at ran
      split at ran
      · cases ran
        exact ⟨rooted, still, fun tracked _ => tracked, fun yes => by cases yes⟩
      · rename_i space insert
        obtain ⟨_, _, rfl⟩ := spaceTrackExtent_cases insert
        obtain ⟨⟨mapped, mm₁⟩, raw, ran⟩ := bind_ok ran
        have fits : 2 ^ order ≤ 2 ^ 27 := by
          unfold mmuUserLimit pageSize at *
          omega
        have inside := (Nat.add_le_add_left (Nat.mul_le_mul_right pageSize size) va).trans high
        have before : Rooted { mm.space with extents := mm.space.extents.rdropWhile (fun other => va < other.va) ++
            ⟨va, pa, 2 ^ order, order⟩ :: mm.space.extents.rtakeWhile (fun other => va < other.va) } :=
          ⟨rooted.low, rooted.parent, rooted.table⟩
        obtain ⟨rooted₁, extents₁, keeps₁, adds₁, all₁⟩ := Rooted.mapUserPagesRaw (2 ^ order) before fits raw
        have first : Tracked mm.space → Clear mm.space.extents va (remaining * pageSize) → Tracked mm₁.space := by
          intro tracked clear
          have block : Clear mm.space.extents va (2 ^ order * pageSize) := by
            intro other member
            have apart := overlaps_eq_false.mp (clear other member)
            have less := Nat.mul_le_mul_right pageSize size
            exact overlaps_eq_false.mpr (by omega)
          exact tracked.addExtent (show 0 < (⟨va, pa, 2 ^ order, order⟩ : Extent).pages from positive) whole inside
            block extents₁ adds₁
        have grown₁ : Grown mm.space mm₁.space va (remaining * pageSize) := by
          have less := Nat.mul_le_mul_right pageSize size
          refine ⟨fun other member => ?_, fun page now => ?_, keeps₁⟩
          · rw [extents₁] at member
            rcases mem_insertExtent.mp member with rfl | member
            · exact Or.inr ⟨Nat.le_refl _, Nat.add_le_add_left less va⟩
            · exact Or.inl member
          · refine (adds₁ page now).imp_right ?_
            rintro ⟨i, below, rfl⟩
            rw [pageIndex_va (by unfold pageSize at *; omega) (by unfold pageSize at *; omega)]
            unfold pageSize at *
            omega
        cases mapped with
        | false =>
          cases ran
          exact ⟨rooted₁, grown₁, first, fun yes => by cases yes⟩
        | true =>
          obtain ⟨rooted', grown', tracked', free'⟩ := ih rooted₁ (by unfold pageSize at *; omega)
            (by unfold pageSize at *; omega) ran
          have rest : va + 2 ^ order * pageSize + (remaining - 2 ^ order) * pageSize = va + remaining * pageSize := by
            unfold pageSize at *
            omega
          refine ⟨rooted', ⟨fun other member => ?_, fun page now => ?_, fun page was => grown'.keeps page (keeps₁ page was)⟩,
            fun tracked clear => tracked' (first tracked clear) fun other member => ?_, fun yes i below => ?_⟩
          · rcases grown'.extents other member with member | ⟨low, stop⟩
            · exact grown₁.extents other member
            · exact Or.inr ⟨by omega, by omega⟩
          · rcases grown'.adds page now with was | ⟨low, stop⟩
            · exact grown₁.adds page was
            · exact Or.inr ⟨by omega, by omega⟩
          · rw [extents₁] at member
            rcases mem_insertExtent.mp member with rfl | member
            · exact overlaps_eq_false.mpr (Or.inl (Nat.le_refl _))
            · have apart := overlaps_eq_false.mp (clear other member)
              refine overlaps_eq_false.mpr ?_
              omega
          · by_cases early : i < 2 ^ order
            · exact (all₁ rfl i early).1
            · have later := free' yes (i - 2 ^ order) (by omega)
              rw [show va + 2 ^ order * pageSize + (i - 2 ^ order) * pageSize = va + i * pageSize by unfold pageSize; omega] at later
              by_contra was
              rw [keeps₁ _ (Bool.eq_true_of_not_eq_false was)] at later
              cases later

theorem Tracked.congr {space' : Space} (tracked : Tracked space) (extents : space'.extents = space.extents)
    (maps : ∀ page, space'.maps page = true → page * pageSize < mmuUserSigtrampVa → space.maps page = true) :
    Tracked space' := by
  refine ⟨fun page mapped below => ?_, ?_, ?_⟩
  · rw [extents]
    exact tracked.covered page (maps page mapped below) below
  · rw [extents]
    exact tracked.apart
  · rw [extents]
    exact tracked.positive

theorem Rooted.congr {space' : Space} (rooted : Rooted space) (has2 : space'.l2Tables = space.l2Tables)
    (has3 : space'.l3Tables = space.l3Tables) (maps : ∀ page, space'.maps page = true → space.maps page = true) :
    Rooted space' := by
  refine ⟨fun page mapped => rooted.low page (maps page mapped), fun index has => ?_, fun page mapped => ?_⟩
  · rw [Space.has2, has2]
    exact rooted.parent index (by rw [Space.has3, ← has3]; exact has)
  · rw [Space.has3, has3]
    exact rooted.table page (maps page mapped)

theorem Rooted.unmapPages (n : Nat) : ∀ {mm : Mm} {va : Nat}, Rooted mm.space → unmapPages mm va n = .ok mm' →
    Rooted mm'.space ∧ mm'.space.extents = mm.space.extents ∧ ∀ page, mm'.space.maps page = true ↔
      mm.space.maps page = true ∧ ∀ i < n, page ≠ pageIndex (va + i * pageSize) := by
  induction n with
  | zero =>
    intro mm va rooted ran
    cases ran
    exact ⟨rooted, rfl, fun page => by simp⟩
  | succ n ih =>
    intro mm va rooted ran
    have next : ∀ i, va + pageSize + i * pageSize = va + (i + 1) * pageSize := fun i => by ring
    have split : ∀ page, (∀ i < n + 1, page ≠ pageIndex (va + i * pageSize)) ↔
        page ≠ pageIndex va ∧ ∀ i < n, page ≠ pageIndex (va + (i + 1) * pageSize) := by
      intro page
      constructor
      · intro all
        exact ⟨by simpa using all 0 (by omega), fun i below => all (i + 1) (by omega)⟩
      · rintro ⟨first, others⟩ (- | i) below
        · simpa using first
        · exact others i (by omega)
    rw [Mmu.unmapPages] at ran
    rw [rooted.validPte_eq] at ran
    cases leaf : mm.space.leaves.get? (pageIndex va) with
    | none =>
      rw [leaf] at ran
      obtain ⟨rooted', extents', maps'⟩ := ih rooted ran
      refine ⟨rooted', extents', fun page => ?_⟩
      rw [maps', split]
      simp only [next]
      constructor
      · rintro ⟨mapped, others⟩
        refine ⟨mapped, ?_, others⟩
        rintro rfl
        simp [Space.maps, leaf] at mapped
      · rintro ⟨mapped, _, others⟩
        exact ⟨mapped, others⟩
    | some pte =>
      rw [leaf] at ran
      obtain ⟨freed, _, ran⟩ := bind_ok ran
      have cleared : ∀ page, (mm.clearLeaf (pageIndex va)).space.maps page = true ↔
          mm.space.maps page = true ∧ page ≠ pageIndex va := fun page => by
        simp only [Mm.clearLeaf, Space.maps, SortedMap.get?_erase]
        split <;> simp_all
      have rooted₁ : Rooted (mm.clearLeaf (pageIndex va)).space :=
        rooted.congr rfl rfl fun page mapped => ((cleared page).mp mapped).1
      obtain ⟨rooted', extents', maps'⟩ := @ih { mm.clearLeaf (pageIndex va) with buddy := freed } _ rooted₁ ran
      refine ⟨rooted', extents', fun page => ?_⟩
      rw [maps', split]
      simp only [next]
      constructor
      · rintro ⟨mapped, others⟩
        obtain ⟨before, apart⟩ := (cleared page).mp mapped
        exact ⟨before, apart, others⟩
      · rintro ⟨before, apart, others⟩
        exact ⟨(cleared page).mpr ⟨before, apart⟩, others⟩

/-- A range that cuts no extent: what an extent that it meets has mapped below the trampoline is in the range. -/
def Uncut (space : Space) (start size : Nat) : Prop :=
  ∀ extent ∈ space.extents, extent.overlaps start size = true → ∀ page, space.maps page = true →
    page * pageSize < mmuUserSigtrampVa → extent.Has (page * pageSize) →
    start ≤ page * pageSize ∧ page * pageSize < start + size

theorem page_in_range (whole : start % pageSize = 0) (sized : size % pageSize = 0) (low : start + size ≤ mmuUserLimit)
    (inside : page < 2 ^ 27) : (∃ i < size / pageSize, page = pageIndex (start + i * pageSize)) ↔
      start ≤ page * pageSize ∧ page * pageSize < start + size := by
  constructor
  · rintro ⟨i, below, rfl⟩
    unfold pageIndex mmuUserLimit pageSize at *
    omega
  · rintro ⟨above, below⟩
    refine ⟨page - start / pageSize, ?_, ?_⟩
    · unfold pageSize at *
      omega
    · unfold pageIndex mmuUserLimit pageSize at *
      omega

end

end Enlil.Mmu
