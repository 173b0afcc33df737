import Enlil.Mmu.Fits
import Enlil.Mmu.Views

/-! A mapping changes what the hardware makes of other addresses only where it cuts a block. -/

namespace Enlil.Mmu.Walk

open Pmm

section

variable {t t' t₁ : Tables} {mm mm' : Mm} {va g s : Nat} {found : Bool} {prot : Prot}

/-- An address of a range. -/
def InRange (start size va : Nat) : Prop := start ≤ va ∧ va < start + size

/-- The translation of an address outside a range does not change. -/
def Local (start size : Nat) (t t' : Tables) : Prop := ∀ va, ¬ InRange start size va → translate t' va = translate t va

/--
No block is cut by a range.

Two megabytes of which the range has an address and which a block maps, of their own or as a part of a gigabyte, are inside the range; and so is a gigabyte that a block maps to other addresses than its own.
-/
structure Whole (t : Tables) (start size : Nat) : Prop where
  slot : ∀ va va', InRange start size va → (∃ base attrs, view t (va / 2 ^ 21) = .block base attrs) →
    va' / 2 ^ 21 = va / 2 ^ 21 → InRange start size va'
  own : ∀ va va', InRange start size va → rootBlock t (va / 2 ^ 30) = true →
    outputAddr (t.root (va / 2 ^ 30)) (2 ^ 30) 0 ≠ va / 2 ^ 30 * 2 ^ 30 → va' / 2 ^ 30 = va / 2 ^ 30 → InRange start size va'

variable {start size : Nat}

theorem Local.refl (t : Tables) : Local start size t t := fun _ _ => rfl

theorem Local.trans (first : Local start size t t₁) (second : Local start size t₁ t') : Local start size t t' :=
  fun va outside => (second va outside).trans (first va outside)

theorem rootBlock_table (table : pteIsTableDesc (t.root g) = true) : rootBlock t g = false := by
  rw [rootBlock, table, Bool.not_true, Bool.and_false]

theorem part_addr {address v : Nat} : address / 2 ^ 30 * 2 ^ 30 + 0 % 2 ^ 30 = v / 2 ^ 30 * 2 ^ 30 ↔
    address / 2 ^ 30 * 2 ^ 30 + v / 2 ^ 21 % 2 ^ 9 * 2 ^ 21 % 2 ^ 30 = v / 2 ^ 21 * 2 ^ 21 := by
  have small : v / 2 ^ 21 % 2 ^ 9 * 2 ^ 21 < 2 ^ 30 := by omega
  have upper : v / 2 ^ 30 = v / 2 ^ 21 / 2 ^ 9 := by omega
  have sum (part : Nat) : part / 2 ^ 9 * 2 ^ 30 + part % 2 ^ 9 * 2 ^ 21 = part * 2 ^ 21 := by omega
  rw [Nat.zero_mod, Nat.add_zero, upper, Nat.mod_eq_of_lt small, ← sum (v / 2 ^ 21)]
  exact Nat.add_right_cancel_iff.symm

theorem Whole.identity (whole : Whole t start size) (inside : InRange start size va) {v : Nat}
    (outside : ¬ InRange start size v) (near : v / 2 ^ 30 = va / 2 ^ 30) (block : rootBlock t (va / 2 ^ 30) = true) :
    view t (v / 2 ^ 21) = .block (v / 2 ^ 21 * 2 ^ 21) (attributes (t.root (va / 2 ^ 30))) := by
  have own : outputAddr (t.root (va / 2 ^ 30)) (2 ^ 30) 0 = va / 2 ^ 30 * 2 ^ 30 := by
    by_contra other
    exact outside (whole.own va v inside block other near)
  have index : v / 2 ^ 21 / 2 ^ 9 = va / 2 ^ 30 := by omega
  rw [view_rootBlock (index.symm ▸ block), index]
  rw [outputAddr, ← near] at own
  rw [outputAddr, ← near, part_addr.mp own]

theorem Whole.split (whole : Whole t start size) (inside : InRange start size va) (low : start + size ≤ 2 ^ 39)
    (split : Split t (va / 2 ^ 30) t') : Local start size t t' ∧ Whole t' start size := by
  -- The parts of a gigabyte map their own addresses as it did itself.
  have same (v : Nat) (small : v < 2 ^ 39) (outside : ¬ InRange start size v) : view t' (v / 2 ^ 21) = view t (v / 2 ^ 21) := by
    rw [split.views _ (by omega)]
    split
    · rename_i both
      rw [whole.identity inside outside (by omega) both.2]
    · rfl
  refine ⟨fun v outside => ?_, ⟨fun v v' within block near => ?_, fun v v' within block other near => ?_⟩⟩
  · by_cases small : v < 2 ^ 39
    · rw [translate_eq t' small, translate_eq t small, same v small outside, split.leaves]
    · rw [translate, translate, if_pos (by omega), if_pos (by omega)]
  · refine whole.slot v v' within ?_ near
    obtain ⟨base, attrs, block⟩ := block
    rw [split.views _ (by have := within.2; omega)] at block
    split at block
    · rename_i both
      exact ⟨_, _, view_rootBlock (both.1 ▸ both.2)⟩
    · exact ⟨base, attrs, block⟩
  · by_cases here : v / 2 ^ 30 = va / 2 ^ 30
    · rw [here, rootBlock_table split.root] at block
      cases block
    · have root := split.roots _ (.inl here)
      rw [rootBlock, root, ← rootBlock] at block
      rw [root] at other
      exact whole.own v v' within block other near

theorem Whole.opened (whole : Whole t start size) (inside : InRange start size va) (low : start + size ≤ 2 ^ 39)
    (opened : Opened t (va / 2 ^ 21) t') : Local start size t t' ∧ Whole t' start size := by
  have upper : va / 2 ^ 21 / 2 ^ 9 = va / 2 ^ 30 := by omega
  have root : pteIsTableDesc (t'.root (va / 2 ^ 30)) = true := upper ▸ opened.root
  refine ⟨fun v outside => ?_, ⟨fun v v' within block near => ?_, fun v v' within block other near => ?_⟩⟩
  · by_cases small : v < 2 ^ 39
    · rw [translate_eq t' small, translate_eq t small, opened.leaves]
      have leaf : v / 2 ^ 12 / 2 ^ 9 = v / 2 ^ 21 := by omega
      by_cases here : v / 2 ^ 21 = va / 2 ^ 21
      · -- What was no table was nothing, as the range does not cut the block.
        rw [leaf, here, opened.here]
        cases before : view t (va / 2 ^ 21) with
        | nothing =>
          rw [if_pos ⟨rfl, nofun⟩]
          rfl
        | block base attrs => exact absurd (whole.slot va v inside ⟨base, attrs, before⟩ here) outside
        | table => rw [if_neg fun both => both.2 rfl]
      · have same : view t' (v / 2 ^ 21) = view t (v / 2 ^ 21) := by
          rw [opened.views _ (by omega) here, upper]
          split
          · rename_i both
            rw [whole.identity inside outside (by omega) both.2]
          · rfl
        rw [leaf, if_neg fun both => here both.1, same]
    · rw [translate, translate, if_pos (by omega), if_pos (by omega)]
  · refine whole.slot v v' within ?_ near
    obtain ⟨base, attrs, block⟩ := block
    by_cases here : v / 2 ^ 21 = va / 2 ^ 21
    · rw [here, opened.here] at block
      cases block
    · rw [opened.views _ (by have := within.2; omega) here] at block
      split at block
      · rename_i both
        exact ⟨_, _, view_rootBlock (both.1.symm ▸ both.2)⟩
      · exact ⟨base, attrs, block⟩
  · by_cases here : v / 2 ^ 30 = va / 2 ^ 30
    · rw [here, rootBlock_table root] at block
      cases block
    · have root := opened.roots (v / 2 ^ 30) (.inl (by omega))
      rw [rootBlock, root, ← rootBlock] at block
      rw [root] at other
      exact whole.own v v' within block other near

/-- A change of the tables for an address of a range. -/
inductive Change (start size : Nat) (t : Tables) : Tables → Prop where
  | split {va : Nat} {t' : Tables} : InRange start size va → Split t (va / 2 ^ 30) t' → Change start size t t'
  | opened {va : Nat} {t' : Tables} : InRange start size va → Opened t (va / 2 ^ 21) t' → Change start size t t'
  | leaf {va : Nat} (desc : UInt64) : InRange start size va →
      Change start size t { t with l3 := Function.update t.l3 (va / 2 ^ 12) desc }

/-- Changes one after the other. -/
abbrev Changes (start size : Nat) : Tables → Tables → Prop := Relation.ReflTransGen (Change start size)

theorem view_leaf (t : Tables) (l3 : Nat → UInt64) (s : Nat) : view { t with l3 } s = view t s := rfl

theorem view_table_root (table : view t s = .table) : pteIsTableDesc (t.root (s / 2 ^ 9)) = true := by
  unfold view at table
  dsimp only at table
  split at table
  · cases table
  · split at table
    · cases table
    · rename_i isTable
      simpa using isTable

theorem page_outside {v : Nat} (first : start % pageSize = 0) (last : size % pageSize = 0) (inside : InRange start size va)
    (outside : ¬ InRange start size v) : v / 2 ^ 12 ≠ va / 2 ^ 12 := by
  unfold InRange pageSize at *
  omega

theorem Change.local (change : Change start size t t') (whole : Whole t start size) (low : start + size ≤ 2 ^ 39)
    (first : start % pageSize = 0) (last : size % pageSize = 0) : Local start size t t' ∧ Whole t' start size := by
  cases change with
  | split inside split => exact whole.split inside low split
  | opened inside opened => exact whole.opened inside low opened
  | leaf desc inside =>
    refine ⟨fun v outside => ?_, ⟨whole.slot, whole.own⟩⟩
    by_cases small : v < 2 ^ 39
    · rw [translate_eq _ small, translate_eq _ small, view_leaf]
      simp only [Function.update_of_ne (page_outside first last inside outside)]
    · rw [translate, translate, if_pos (by omega), if_pos (by omega)]

theorem Changes.local (changes : Changes start size t t') (whole : Whole t start size) (low : start + size ≤ 2 ^ 39)
    (first : start % pageSize = 0) (last : size % pageSize = 0) : Local start size t t' := by
  have both : Local start size t t' ∧ Whole t' start size := by
    induction changes with
    | refl => exact ⟨.refl t, whole⟩
    | tail _ change ih =>
      obtain ⟨apart, whole'⟩ := change.local ih.2 low first last
      exact ⟨ih.1.trans apart, whole'⟩
  exact both.1

theorem Change.table (change : Change start size t t') (small : s < 2 ^ 18) (table : view t s = .table) :
    view t' s = .table := by
  have plain : rootBlock t (s / 2 ^ 9) = false := rootBlock_table (view_table_root table)
  cases change with
  | split inside split =>
    rw [split.views s small, if_neg fun both => ?_, table]
    rw [← both.1, plain] at both
    cases both.2
  | @opened va _ inside opened =>
    by_cases here : s = va / 2 ^ 21
    · rw [here, opened.here]
    · rw [opened.views s small here, if_neg fun both => ?_, table]
      rw [← both.1, plain] at both
      cases both.2
  | leaf desc inside => exact table

theorem Changes.table (changes : Changes start size t t') (small : s < 2 ^ 18) (table : view t s = .table) :
    view t' s = .table := by
  induction changes with
  | refl => exact table
  | tail _ change ih => exact change.table small ih

/-- What has become of an address that a block mapped: the block is as before, or is split, or the address is mapped no more. -/
inductive Fate (t : Tables) (v base : Nat) (attrs : UInt64) (t' : Tables) : Prop where
  | same : t'.root (v / 2 ^ 30) = t.root (v / 2 ^ 30) → view t' (v / 2 ^ 21) = .block base attrs → Fate t v base attrs t'
  | split (own : UInt64) : rootBlock t (v / 2 ^ 30) = true → rootBlock t' (v / 2 ^ 30) = false →
      view t' (v / 2 ^ 21) = .block (v / 2 ^ 21 * 2 ^ 21) own → Fate t v base attrs t'
  | lost : view t' (v / 2 ^ 21) = .table → t'.l3 (v / 2 ^ 12) = 0 → Fate t v base attrs t'

theorem view_block_root {base : Nat} {attrs : UInt64} (block : view t s = .block base attrs)
    (plain : rootBlock t (s / 2 ^ 9) = false) : pteIsTableDesc (t.root (s / 2 ^ 9)) = true := by
  rw [rootBlock, Bool.and_eq_false_iff, Bool.not_eq_false'] at plain
  rcases plain with invalid | table
  · rw [view, invalid] at block
    cases block
  · exact table

theorem rootBlock_after {root : Nat} (table : pteIsTableDesc (t'.root root) = true)
    (others : ∀ i, i ≠ root ∨ pteIsTableDesc (t.root root) = true → t'.root i = t.root i)
    (plain : rootBlock t g = false) : rootBlock t' g = false := by
  by_cases here : g = root
  · rw [here]
    exact rootBlock_table table
  · rw [rootBlock, others g (.inl here)]
    exact plain

theorem Fate.around {v base root : Nat} {attrs attrs' : UInt64} (fate : Fate t v base attrs t₁)
    (table : pteIsTableDesc (t'.root root) = true)
    (others : ∀ i, i ≠ root ∨ pteIsTableDesc (t₁.root root) = true → t'.root i = t₁.root i)
    (views : view t' (v / 2 ^ 21) = if v / 2 ^ 21 / 2 ^ 9 = root ∧ rootBlock t₁ root = true then
      .block (v / 2 ^ 21 * 2 ^ 21) attrs' else view t₁ (v / 2 ^ 21))
    (leaf : t'.l3 (v / 2 ^ 12) = t₁.l3 (v / 2 ^ 12)) : Fate t v base attrs t' := by
  have upper : v / 2 ^ 21 / 2 ^ 9 = v / 2 ^ 30 := by omega
  rw [upper] at views
  cases fate with
  | same root_same block =>
    by_cases both : v / 2 ^ 30 = root ∧ rootBlock t₁ root = true
    · -- The gigabyte was one block up to now.
      rw [if_pos both] at views
      refine .split attrs' ?_ ?_ views
      · rw [rootBlock, ← root_same, ← rootBlock, both.1]
        exact both.2
      · rw [both.1]
        exact rootBlock_table table
    · rw [if_neg both, block] at views
      refine .same ((others _ ?_).trans root_same) views
      by_cases here : v / 2 ^ 30 = root
      · have plain : rootBlock t₁ root = false := Bool.eq_false_iff.mpr fun block => both ⟨here, block⟩
        right
        rw [← here, ← upper] at plain ⊢
        exact view_block_root block plain
      · exact .inl here
  | split own before plain block =>
    refine .split own before (rootBlock_after table others plain) ?_
    rw [views, if_neg fun both => ?_, block]
    rw [← both.1, plain] at both
    cases both.2
  | lost isTable zero =>
    have plain : rootBlock t₁ (v / 2 ^ 30) = false := upper ▸ rootBlock_table (view_table_root isTable)
    refine .lost ?_ (leaf.trans zero)
    rw [views, if_neg fun both => ?_, isTable]
    rw [← both.1, plain] at both
    cases both.2

theorem Fate.change {v base : Nat} {attrs : UInt64} (fate : Fate t v base attrs t₁) (change : Change start size t₁ t')
    (low : v < 2 ^ 39) (first : start % pageSize = 0) (last : size % pageSize = 0) (outside : ¬ InRange start size v) :
    Fate t v base attrs t' := by
  cases change with
  | split inside split => exact fate.around split.root split.roots (split.views _ (by omega)) (by rw [split.leaves])
  | @opened va _ inside opened =>
    have leaf : v / 2 ^ 12 / 2 ^ 9 = v / 2 ^ 21 := by omega
    have word := opened.leaves (v / 2 ^ 12)
    rw [leaf] at word
    by_cases here : v / 2 ^ 21 = va / 2 ^ 21
    · refine .lost (here ▸ opened.here) ?_
      rw [word]
      split
      · rfl
      · rename_i kept
        have table : view t₁ (v / 2 ^ 21) = .table := by
          by_contra other
          exact kept ⟨here, here ▸ other⟩
        cases fate with
        | same _ block | split _ _ _ block =>
          rw [block] at table
          cases table
        | lost _ zero => exact zero
    · rw [if_neg fun both => here both.1] at word
      exact fate.around opened.root opened.roots (opened.views _ (by omega) here) word
  | leaf desc inside =>
    have other := page_outside first last inside outside
    cases fate with
    | same root block => exact .same root block
    | split own before plain block => exact .split own before plain block
    | lost table zero => exact .lost table ((Function.update_of_ne other ..).trans zero)

theorem Changes.fate {v base : Nat} {attrs : UInt64} (changes : Changes start size t t') (low : v < 2 ^ 39)
    (first : start % pageSize = 0) (last : size % pageSize = 0) (outside : ¬ InRange start size v)
    (block : view t (v / 2 ^ 21) = .block base attrs) : Fate t v base attrs t' := by
  induction changes with
  | refl => exact .same rfl block
  | tail _ change ih => exact ih.change change low first last outside

theorem Changes.whole (changes : Changes start size t t') (low : start + size ≤ 2 ^ 39) (first : start % pageSize = 0)
    (last : size % pageSize = 0) (tables : ∀ va, InRange start size va → view t' (va / 2 ^ 21) = .table)
    (unchanged : Local start size t t') : Whole t start size where
  slot va v inside block near := by
    by_contra outside
    obtain ⟨base, attrs, block⟩ := block
    have small : v < 2 ^ 39 := by
      have := inside.2
      omega
    have same := unchanged v outside
    rw [translate_eq t' small, translate_eq t small, near, block, tables va inside] at same
    cases changes.fate small first last outside (near ▸ block) with
    | same _ still | split _ _ _ still =>
      rw [near, tables va inside] at still
      cases still
    | lost _ zero =>
      rw [zero] at same
      cases same
  own va v inside block other near := by
    by_contra outside
    have small : v < 2 ^ 39 := by
      have := inside.2
      omega
    have upper : v / 2 ^ 21 / 2 ^ 9 = va / 2 ^ 30 := by omega
    have part := view_rootBlock (s := v / 2 ^ 21) (by rw [upper]; exact block)
    have same := unchanged v outside
    rw [translate_eq t' small, translate_eq t small, part] at same
    have table : pteIsTableDesc (t'.root (v / 2 ^ 30)) = true := by
      have here := view_table_root (tables va inside)
      rwa [show va / 2 ^ 21 / 2 ^ 9 = v / 2 ^ 30 by omega] at here
    cases changes.fate small first last outside part with
    | same root _ =>
      have plain := rootBlock_table table
      rw [rootBlock, root, ← rootBlock, near, block] at plain
      cases plain
    | split own _ _ still =>
      rw [still] at same
      simp only [Option.some.injEq, Prod.mk.injEq] at same
      refine other ?_
      have equal := same.1
      rw [upper, outputAddr] at equal
      rw [outputAddr, ← near]
      rw [← near] at equal
      exact part_addr.mpr (Nat.add_right_cancel equal).symm
    | lost isTable zero =>
      rw [isTable, zero] at same
      cases same

theorem index_eq (low : va < 2 ^ 39) : l1Index va = va / 2 ^ 30 ∧ l3Index va = va / 2 ^ 21 ∧ pageIndex va = va / 2 ^ 12 := by
  unfold l1Index l3Index pageIndex
  omega

/-- What is made of the pages from an address on: only changes for the range, and tables for all of them if the call succeeds. -/
structure Covered (start size va count : Nat) (found : Bool) (t t' : Tables) : Prop where
  changes : Changes start size t t'
  tables : found = true → ∀ v, va ≤ v → v < va + count * pageSize → view t' (v / 2 ^ 21) = .table

theorem Covered.none (changes : Changes start size t t') : Covered start size va 0 found t t' :=
  ⟨changes, fun _ v above below => by omega⟩

theorem Covered.failed {count : Nat} (changes : Changes start size t t') : Covered start size va count false t t' :=
  ⟨changes, nofun⟩

theorem Covered.after {count count' : Nat} (covered : Covered start size va count true t t₁)
    (rest : Covered start size (va + count * pageSize) count' found t₁ t')
    (low : va + count * pageSize ≤ 2 ^ 39) : Covered start size va (count + count') found t t' where
  changes := covered.changes.trans rest.changes
  tables done v above below := by
    rw [Nat.add_mul, ← Nat.add_assoc] at below
    by_cases first : v < va + count * pageSize
    · exact rest.changes.table (by omega) (covered.tables rfl v above first)
    · exact rest.tables done v (by omega) below

theorem spaceEnsureL3_covered (ran : spaceEnsureL3 mm va = .ok (found, mm')) (inside : InRange start size va)
    (low : start + size ≤ 2 ^ 39) (whole : va % pageSize = 0) : Covered start size va 1 found mm.tables mm'.tables := by
  have small : va < 2 ^ 39 := by
    have := inside.2
    omega
  obtain ⟨first, second, _⟩ := index_eq small
  rcases spaceEnsureL3_cases ran with ⟨rfl, same | split⟩ | ⟨rfl, opened⟩
  · exact .failed (same ▸ .refl)
  · exact .failed (.single (.split inside (first ▸ split)))
  · rw [second] at opened
    refine ⟨.single (.opened inside opened), fun _ v above below => ?_⟩
    rw [pageSize] at whole below
    rw [show v / 2 ^ 21 = va / 2 ^ 21 by omega, opened.here]

theorem Covered.setLeaf {count : Nat} (covered : Covered start size va count found mm.tables mm'.tables)
    (inside : InRange start size va) (low : start + size ≤ 2 ^ 39) (desc : UInt64) :
    Covered start size va count found mm.tables (mm'.setLeaf (pageIndex va) desc).tables where
  changes := by
    have small : va < 2 ^ 39 := by
      have := inside.2
      omega
    rw [(index_eq small).2.2]
    exact covered.changes.tail (.leaf desc inside)
  tables := covered.tables

theorem mapUserPagesRaw_covered (n : Nat) : ∀ {mm : Mm} {va pa : Nat}, start ≤ va → va + n * pageSize ≤ start + size →
    start + size ≤ 2 ^ 39 → va % pageSize = 0 → mapUserPagesRaw mm va pa prot n = .ok (found, mm') →
    Covered start size va n found mm.tables mm'.tables := by
  induction n with
  | zero =>
    intro mm va pa _ _ _ _ ran
    cases ran
    exact .none .refl
  | succ n ih =>
    intro mm va pa above below low whole ran
    rw [mapUserPagesRaw] at ran
    obtain ⟨⟨ready, mm₁⟩, ensured, ran⟩ := bind_ok ran
    rw [Nat.add_mul, Nat.one_mul] at below
    have inside : InRange start size va := ⟨above, by rw [pageSize] at below; omega⟩
    have covered := spaceEnsureL3_covered ensured inside low whole
    cases ready with
    | false =>
      cases ran
      exact .failed covered.changes
    | true =>
      simp only [Bool.not_true, Bool.false_eq_true, if_false] at ran
      split at ran
      · cases ran
        exact .failed covered.changes
      · have rest := ih (by omega) (by omega) low (by rw [Nat.add_mod_right]; exact whole) ran
        have both := (covered.setLeaf inside low _).after (by rwa [Nat.one_mul]) (by omega)
        rwa [Nat.add_comm] at both

theorem mapBlocks_covered (fuel : Nat) : ∀ {mm : Mm} {va remaining : Nat}, start ≤ va →
    va + remaining * pageSize ≤ start + size → start + size ≤ 2 ^ 39 → va % pageSize = 0 →
    mapBlocks mm va remaining prot fuel = .ok (found, mm') →
    Covered start size va remaining found mm.tables mm'.tables := by
  induction fuel with
  | zero =>
    intro mm va remaining _ _ _ _ ran
    cases ran
    refine ⟨.refl, fun none v above below => ?_⟩
    rw [decide_eq_true_eq] at none
    rw [none] at below
    omega
  | succ fuel ih =>
    intro mm va remaining above below low whole ran
    rw [mapBlocks] at ran
    split at ran
    · rename_i none
      cases ran
      rw [none]
      exact .none .refl
    · obtain ⟨⟨pa, buddy⟩, _, ran⟩ := bind_ok ran
      have fits := largestOrderFit_le maxOrder (show 2 ^ 0 ≤ remaining by omega)
      dsimp only at ran
      generalize largestOrderFit remaining 0 maxOrder = order at *
      split at ran
      · cases ran
        exact .failed .refl
      · rename_i mm₁ tracked
        have same : mm₁.tables = mm.tables := by
          unfold spaceTrackExtent at tracked
          split at tracked
          · cases tracked
          · cases tracked
            rfl
        obtain ⟨⟨mapped, mm₂⟩, raw, ran⟩ := bind_ok ran
        obtain ⟨rest, rfl⟩ := Nat.exists_eq_add_of_le fits
        rw [Nat.add_mul] at below
        have covered := mapUserPagesRaw_covered (2 ^ order) above (by omega) low whole raw
        rw [same] at covered
        cases mapped with
        | false =>
          cases ran
          exact .failed covered.changes
        | true =>
          rw [Nat.add_sub_cancel_left] at ran
          refine covered.after (ih (by omega) (by omega) low ?_ ran) (by omega)
          rw [Nat.add_mul_mod_self_right]
          exact whole

theorem aliasPages_covered (n : Nat) : ∀ {mm : Mm} {dst src : Nat}, start ≤ dst → dst + n * pageSize ≤ start + size →
    start + size ≤ 2 ^ 39 → dst % pageSize = 0 → aliasPages mm dst src prot n = .ok (found, mm') →
    Covered start size dst n found mm.tables mm'.tables := by
  induction n with
  | zero =>
    intro mm dst src _ _ _ _ ran
    cases ran
    exact .none .refl
  | succ n ih =>
    intro mm dst src above below low whole ran
    rw [aliasPages] at ran
    rw [Nat.add_mul, Nat.one_mul] at below
    split at ran
    · cases ran
      exact .failed .refl
    · split at ran
      · cases ran
        exact .failed .refl
      · obtain ⟨⟨ready, mm₁⟩, ensured, ran⟩ := bind_ok ran
        have inside : InRange start size dst := ⟨above, by rw [pageSize] at below; omega⟩
        have covered := spaceEnsureL3_covered ensured inside low whole
        cases ready with
        | false =>
          cases ran
          exact .failed covered.changes
        | true =>
          simp only [Bool.not_true, Bool.false_eq_true, if_false] at ran
          have next : (dst + pageSize) % pageSize = 0 := by rw [Nat.add_mod_right]; exact whole
          split at ran
          · split at ran
            · have rest := ih (by omega) (by omega) low next ran
              have both := covered.after (by rwa [Nat.one_mul]) (by omega)
              rwa [Nat.add_comm] at both
            · cases ran
              exact .failed covered.changes
          · have rest := ih (by omega) (by omega) low next ran
            have both := (covered.setLeaf inside low _).after (by rwa [Nat.one_mul]) (by omega)
            rwa [Nat.add_comm] at both

end

/-- The calls that map a range. -/
inductive Call where
  | mapRegion (start size : Nat) (prot : Prot)
  | aliasRegion (aliasStart srcStart size : Nat) (prot : Prot)

def Call.start : Call → Nat
  | .mapRegion start _ _ | .aliasRegion start _ _ _ => start

def Call.size : Call → Nat
  | .mapRegion _ size _ | .aliasRegion _ _ size _ => size

def Call.run (mm : Mm) : Call → Except Halt (Bool × Mm)
  | .mapRegion start size prot => mmuMapUserRegion mm start size prot
  | .aliasRegion aliasStart srcStart size prot => mmuAliasUserRegion mm aliasStart srcStart size prot

theorem Call.covered {call : Call} {mm mm' : Mm} {found : Bool} (ran : call.run mm = .ok (found, mm')) :
    (found = false ∧ mm' = mm) ∨ (call.start + call.size ≤ 2 ^ 39 ∧ call.start % pageSize = 0 ∧ call.size % pageSize = 0 ∧
      Covered call.start call.size call.start (call.size / pageSize) found mm.tables mm'.tables) := by
  cases call with
  | mapRegion start size prot =>
    change mmuMapUserRegion mm start size prot = _ at ran
    unfold mmuMapUserRegion at ran
    split at ran
    · cases ran
      exact .inl ⟨rfl, rfl⟩
    · rename_i window
      simp only [inWindow, Bool.not_eq_true', Bool.not_eq_false, Bool.and_eq_true, decide_eq_true_eq] at window
      obtain ⟨⟨⟨⟨_, first⟩, last⟩, _⟩, limit⟩ := window
      have low : start + size ≤ 2 ^ 39 := limit
      exact .inr ⟨low, first, last, mapBlocks_covered _ (le_refl _) (by rw [pageSize] at *; simp only [Call.start, Call.size]; omega) low first ran⟩
  | aliasRegion aliasStart srcStart size prot =>
    change mmuAliasUserRegion mm aliasStart srcStart size prot = _ at ran
    unfold mmuAliasUserRegion at ran
    split at ran
    · cases ran
      exact .inl ⟨rfl, rfl⟩
    · rename_i checks
      simp only [not_or, not_not, not_le, not_lt] at checks
      obtain ⟨_, first, _, last, _, limit⟩ := checks
      have low : aliasStart + size ≤ 2 ^ 39 := limit.trans (by decide)
      exact .inr ⟨low, first, last, aliasPages_covered _ (le_refl _) (by rw [pageSize] at *; simp only [Call.start, Call.size]; omega) low first ran⟩

/--
Mapping a range leaves the translation of every other address alone if the range cuts no block.

A call that succeeds leaves it alone in no other case.
-/
theorem mapping_local {call : Call} {mm mm' : Mm} {found : Bool} (ran : call.run mm = .ok (found, mm')) :
    (Whole mm.tables call.start call.size → Local call.start call.size mm.tables mm'.tables) ∧
      (found = true → (Local call.start call.size mm.tables mm'.tables ↔ Whole mm.tables call.start call.size)) := by
  rcases call.covered ran with ⟨rfl, rfl⟩ | ⟨low, first, last, covered⟩
  · exact ⟨fun _ => .refl _, nofun⟩
  · have enough (whole : Whole mm.tables call.start call.size) : Local call.start call.size mm.tables mm'.tables :=
      covered.changes.local whole low first last
    refine ⟨enough, fun done => ⟨fun unchanged => ?_, enough⟩⟩
    refine covered.changes.whole low first last (fun va inside => ?_) unchanged
    refine covered.tables done va inside.1 ?_
    have := inside.2
    rw [pageSize] at *
    omega

/-- A new space in a system that has just started. -/
def newSpace : Mm := ⟨bootBuddy kernelReserved largestBlocks, fun _ => 0, kernelTables, [], []⟩

/-- A page of the user window. -/
def onePage : Call := .mapRegion mmuUserBase pageSize ⟨true, false⟩

/-- The page is mapped a second time where programs are linked to. -/
def lowAlias : Call := .aliasRegion 0x400000 mmuUserBase pageSize ⟨true, false⟩

/-- What a call leaves that returns. -/
def Call.after (mm : Mm) (call : Call) : Mm :=
  match call.run mm with
  | .ok (_, mm') => mm'
  | .error _ => mm

def Call.succeeds (mm : Mm) (call : Call) : Bool :=
  match call.run mm with
  | .ok (found, _) => found
  | .error _ => false

theorem Call.run_after {mm : Mm} {call : Call} (done : call.succeeds mm = true) :
    call.run mm = .ok (true, call.after mm) := by
  unfold Call.succeeds Call.after at *
  cases outcome : call.run mm with
  | error halt => simp [outcome] at done
  | ok result =>
    obtain ⟨found, mm'⟩ := result
    rw [outcome] at done
    dsimp only at done ⊢
    rw [done]

/-- Nothing is a block above the second gigabyte, and the blocks of a gigabyte map their own addresses, as the kernel has made them. -/
structure FromKernel (t : Tables) : Prop where
  roots : ∀ i, rootBlock t i = true → i < 2 ∧ outputAddr (t.root i) (2 ^ 30) 0 = i * 2 ^ 30
  slots : ∀ s < 2 ^ 18, ∀ base attrs, view t s = .block base attrs → s / 2 ^ 9 < 2

theorem kernelTables_fromKernel : FromKernel kernelTables := by
  have rest (i : Nat) (high : 2 ≤ i) : kernelTables.root i = 0 := by
    show (if i = 0 then pteDevice else if i = 1 then 0x40000000 ||| pteKernelRwx else 0) = 0
    rw [if_neg (by omega), if_neg (by omega)]
  refine ⟨fun i block => ?_, fun s _ base attrs block => ?_⟩
  · match i with
    | 0 | 1 => decide
    | i + 2 =>
      rw [rootBlock, rest _ (by omega)] at block
      exact absurd block (by decide)
  · by_contra high
    rw [view, rest _ (by omega)] at block
    cases block

theorem Change.fromKernel {t t' : Tables} {start size : Nat} (change : Change start size t t') (native : FromKernel t) :
    FromKernel t' := by
  cases change with
  | split inside split =>
    refine ⟨fun i block => ?_, fun s small base attrs block => ?_⟩
    · have before : rootBlock t i = true := by
        by_contra plain
        rw [rootBlock_after split.root split.roots (by simpa using plain)] at block
        cases block
      have other : i ≠ _ := fun here => by
        rw [here, rootBlock_table split.root] at block
        cases block
      rw [split.roots i (.inl other)]
      exact native.roots i before
    · rw [split.views s small] at block
      split at block
      · rename_i both
        rw [both.1]
        exact (native.roots _ both.2).1
      · exact native.slots s small base attrs block
  | @opened va _ inside opened =>
    refine ⟨fun i block => ?_, fun s small base attrs block => ?_⟩
    · have before : rootBlock t i = true := by
        by_contra plain
        rw [rootBlock_after opened.root opened.roots (by simpa using plain)] at block
        cases block
      have other : i ≠ _ := fun here => by
        rw [here, rootBlock_table opened.root] at block
        cases block
      rw [opened.roots i (.inl other)]
      exact native.roots i before
    · by_cases here : s = va / 2 ^ 21
      · rw [here, opened.here] at block
        cases block
      · rw [opened.views s small here] at block
        split at block
        · rename_i both
          rw [both.1]
          exact (native.roots _ both.2).1
        · exact native.slots s small base attrs block
  | leaf desc inside => exact ⟨native.roots, native.slots⟩

theorem Changes.fromKernel {t t' : Tables} {start size : Nat} (changes : Changes start size t t') (native : FromKernel t) :
    FromKernel t' := by
  induction changes with
  | refl => exact native
  | tail _ change ih => exact change.fromKernel ih

theorem FromKernel.window {t : Tables} (native : FromKernel t) {start size : Nat} (above : mmuUserBase ≤ start)
    (low : start + size ≤ 2 ^ 39) : Whole t start size where
  slot va _ inside block _ := by
    obtain ⟨base, attrs, block⟩ := block
    have few := native.slots _ (by have := inside.2; omega) base attrs block
    have := inside.1
    unfold mmuUserBase at above
    omega
  own va _ inside block _ _ := by
    have few := (native.roots _ block).1
    have := inside.1
    unfold mmuUserBase at above
    omega

/-- Calls on a space, as far as its tables are concerned. -/
def Call.exec (mm : Mm) (call : Call) : Except Halt Mm := (call.run mm).map (·.2)

/-- In a space that calls have made from the kernel's, a region of the user window is always mapped locally. -/
theorem run_window_local {mm₀ mm mm' : Mm} (new : mm₀.tables = kernelTables)
    (run : Run Call.exec (fun _ _ => True) mm₀ mm) {start size : Nat} {prot : Prot} {found : Bool}
    (ran : mmuMapUserRegion mm start size prot = .ok (found, mm')) : Local start size mm.tables mm'.tables := by
  have native : FromKernel mm.tables := by
    have step : ∀ {mm mm' : Mm} {call : Call}, FromKernel mm.tables → True → Call.exec mm call = .ok mm' →
        FromKernel mm'.tables := ?_
    · exact (Run.invariant (new ▸ kernelTables_fromKernel) step run :
        (fun mm : Mm => FromKernel mm.tables) mm)
    intro mm mm' call native _ done
    obtain ⟨⟨found, mm''⟩, ran, rfl⟩ : ∃ result, call.run mm = .ok result ∧ result.2 = mm' := by
      unfold Call.exec at done
      cases outcome : call.run mm with
      | error halt =>
        rw [outcome] at done
        cases done
      | ok result =>
        rw [outcome] at done
        cases done
        exact ⟨result, rfl, rfl⟩
    rcases call.covered ran with ⟨_, same⟩ | ⟨_, _, _, covered⟩
    · exact same ▸ native
    · exact covered.changes.fromKernel native
  have mapped : (Call.mapRegion start size prot).run mm = .ok (found, mm') := ran
  unfold mmuMapUserRegion at ran
  split at ran
  · cases ran
    exact .refl _
  · rename_i window
    simp only [inWindow, Bool.not_eq_true', Bool.not_eq_false, Bool.and_eq_true, decide_eq_true_eq] at window
    have whole := native.window window.1.2 window.2
    rcases Call.covered mapped with ⟨_, same⟩ | ⟨low, first, last, covered⟩
    · exact same ▸ .refl _
    · exact covered.changes.local whole low first last

theorem mapping_local_onePage : Local mmuUserBase pageSize newSpace.tables (onePage.after newSpace).tables := by
  have ran : onePage.run newSpace = .ok (true, onePage.after newSpace) := Call.run_after (by decide +kernel)
  exact (mapping_local ran).1 (kernelTables_fromKernel.window (le_refl _) (by decide))

theorem run_window_local_onePage : Local mmuUserBase pageSize newSpace.tables (onePage.after newSpace).tables :=
  have ran : onePage.run newSpace = .ok (true, onePage.after newSpace) := Call.run_after (by decide +kernel)
  run_window_local rfl .start ran

/-- An alias in the first gigabyte takes the addresses around it away. -/
theorem alias_not_local : lowAlias.run (onePage.after newSpace) = .ok (true, lowAlias.after (onePage.after newSpace)) ∧
    translate (onePage.after newSpace).tables 0x500000 = some (0x500000, attributes pteDevice) ∧
    translate (lowAlias.after (onePage.after newSpace)).tables 0x500000 = none ∧
    ¬ Local 0x400000 pageSize (onePage.after newSpace).tables (lowAlias.after (onePage.after newSpace)).tables := by
  have before : translate (onePage.after newSpace).tables 0x500000 = some (0x500000, attributes pteDevice) := by
    decide +kernel
  have after : translate (lowAlias.after (onePage.after newSpace)).tables 0x500000 = none := by decide +kernel
  refine ⟨Call.run_after (by decide +kernel), before, after, fun unchanged => ?_⟩
  have same := unchanged 0x500000 (by unfold InRange pageSize; omega)
  rw [before, after] at same
  cases same

end Enlil.Mmu.Walk
