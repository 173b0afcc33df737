import Enlil.Mmu.Accounts
import Enlil.Mmu.Tables

/-! What two megabytes of addresses are mapped by, and how new tables change it. -/

namespace Enlil.Mmu.Walk

open Pmm

theorem or_and (a b c : UInt64) : (a ||| b) &&& c = (a &&& c) ||| (b &&& c) := by
  rw [← UInt64.toBitVec_inj]
  exact BitVec.and_or_distrib_right

theorem merged_and {a b m k : UInt64} (apart : m &&& k = 0) : ((a &&& m) ||| b) &&& k = b &&& k := by
  rw [or_and, UInt64.and_assoc, apart, UInt64.and_zero, UInt64.zero_or]

theorem tableDesc_table (pa : Nat) : pteIsTableDesc (tableDesc pa) = true := by
  rw [pteIsTableDesc, tableDesc, UInt64.or_assoc, merged_and (by decide), UInt64.and_self, beq_self_eq_true]

theorem valid_of_table {desc : UInt64} (table : pteIsTableDesc desc = true) : pteIsValid desc = true := by
  unfold pteIsTableDesc pteIsValid at *
  rw [beq_iff_eq] at table
  rw [bne_iff_ne]
  intro zero
  have both : desc &&& (pteValid ||| pteTable) &&& pteValid = 0 := by
    rw [UInt64.and_assoc]
    exact zero
  rw [table] at both
  exact absurd both (by decide)

theorem splitBlock_and {k : UInt64} (apart : pteAddrMask &&& k = 0) (flags : ~~~pteAddrMask &&& k = k) (l1i : Nat)
    (desc : UInt64) (i : Nat) : splitBlock l1i desc i &&& k = desc &&& k := by
  rw [splitBlock, merged_and apart, UInt64.and_assoc, flags]

theorem splitBlock_valid (l1i : Nat) (desc : UInt64) (i : Nat) : pteIsValid (splitBlock l1i desc i) = pteIsValid desc := by
  rw [pteIsValid, pteIsValid, splitBlock_and (by decide) (by decide)]

theorem splitBlock_table (l1i : Nat) (desc : UInt64) (i : Nat) :
    pteIsTableDesc (splitBlock l1i desc i) = pteIsTableDesc desc := by
  rw [pteIsTableDesc, pteIsTableDesc, splitBlock_and (by decide) (by decide)]

theorem splitBlock_attributes (l1i : Nat) (desc : UInt64) (i : Nat) :
    attributes (splitBlock l1i desc i) = attributes desc :=
  splitBlock_and (by decide) (by decide) ..

theorem and_addrMask {n : Nat} (small : n < 2 ^ 48) (whole : n % 2 ^ 12 = 0) : n &&& 0x0000FFFFFFFFF000 = n := by
  obtain ⟨k, rfl⟩ : ∃ k, n = k <<< 12 := ⟨n / 2 ^ 12, by rw [Nat.shiftLeft_eq]; omega⟩
  have mask : 0x0000FFFFFFFFF000 = (2 ^ 36 - 1) <<< 12 := by decide
  rw [Nat.shiftLeft_eq] at small
  rw [mask, ← Nat.shiftLeft_and_distrib, Nat.and_two_pow_sub_one_eq_mod, Nat.mod_eq_of_lt (by omega)]

theorem splitBlock_addr {l1i i : Nat} (small : l1i < 2 ^ 9) (small' : i < 2 ^ 9) (desc : UInt64) :
    (splitBlock l1i desc i &&& pteAddrMask).toNat = l1i * 2 ^ 30 + i * 2 ^ 21 := by
  have low : i <<< 21 < 2 ^ 30 := by rw [Nat.shiftLeft_eq]; omega
  have sum : l1i <<< 30 ||| i <<< 21 = l1i * 2 ^ 30 + i * 2 ^ 21 := by
    rw [← Nat.shiftLeft_add_eq_or_of_lt low, Nat.shiftLeft_eq, Nat.shiftLeft_eq]
  have own : ((UInt64.ofNat l1i <<< 30) ||| (UInt64.ofNat i <<< 21)).toNat = l1i * 2 ^ 30 + i * 2 ^ 21 := by
    rw [← sum]
    simp only [UInt64.toNat_or, UInt64.toNat_shiftLeft, UInt64.toNat_ofNat', UInt64.reduceToNat, Nat.reduceMod]
    rw [Nat.mod_eq_of_lt (by omega : l1i < 2 ^ 64), Nat.mod_eq_of_lt (by omega : i < 2 ^ 64),
      Nat.mod_eq_of_lt (by rw [Nat.shiftLeft_eq]; omega : l1i <<< 30 < 2 ^ 64), Nat.mod_eq_of_lt (by omega : i <<< 21 < 2 ^ 64)]
  rw [splitBlock, or_and, UInt64.and_assoc, UInt64.and_self, UInt64.and_assoc, UInt64.not_and_self, UInt64.and_zero,
    UInt64.or_zero, UInt64.toNat_and, own]
  exact and_addrMask (by omega) (by omega)
/-- What two megabytes of addresses are mapped by: nothing, a block with its address and attributes, or a table. -/
inductive View where
  | nothing
  | block (base : Nat) (attrs : UInt64)
  | table
  deriving DecidableEq

/-- A gigabyte is mapped by one block. -/
def rootBlock (t : Tables) (g : Nat) : Bool := pteIsValid (t.root g) && !pteIsTableDesc (t.root g)

/-- What the two megabytes of an index are mapped by, also as a part of a gigabyte. -/
def view (t : Tables) (s : Nat) : View :=
  let d1 := t.root (s / 2 ^ 9)
  if !pteIsValid d1 then .nothing
  else if !pteIsTableDesc d1 then .block (outputAddr d1 (2 ^ 30) (s % 2 ^ 9 * 2 ^ 21)) (attributes d1)
  else
    let d2 := t.l2 s
    if !pteIsValid d2 then .nothing
    else if !pteIsTableDesc d2 then .block (outputAddr d2 (2 ^ 21) 0) (attributes d2)
    else .table

/-- What a descriptor in the last level maps an address to. -/
def leafView (desc : UInt64) (va : Nat) : Option (Nat × UInt64) :=
  if pteIsTableDesc desc then some (outputAddr desc (2 ^ 12) va, attributes desc) else none

section

variable {t t' t₁ : Tables} {mm mm' : Mm} {va pa g s : Nat} {found : Bool} {prot : Prot}

theorem translate_eq (t : Tables) (low : va < 2 ^ 39) : translate t va =
    match view t (va / 2 ^ 21) with
    | .nothing => none
    | .block base attrs => some (base + va % 2 ^ 21, attrs)
    | .table => leafView (t.l3 (va / 2 ^ 12)) va := by
  have first : l1Index va = va / 2 ^ 21 / 2 ^ 9 := by unfold l1Index; omega
  have second : l3Index va = va / 2 ^ 21 := by unfold l3Index; omega
  have third : pageIndex va = va / 2 ^ 12 := by unfold pageIndex; omega
  rw [translate, if_neg (by omega), view, first, second, third]
  dsimp only
  split
  · rfl
  · split
    · simp only [outputAddr, Option.some.injEq, Prod.mk.injEq, and_true]
      omega
    · split
      · rfl
      · split
        · simp only [outputAddr, Option.some.injEq, Prod.mk.injEq, and_true]
          omega
        · rfl

theorem view_rootBlock (block : rootBlock t (s / 2 ^ 9) = true) :
    view t s = .block (outputAddr (t.root (s / 2 ^ 9)) (2 ^ 30) (s % 2 ^ 9 * 2 ^ 21)) (attributes (t.root (s / 2 ^ 9))) := by
  rw [rootBlock, Bool.and_eq_true, Bool.not_eq_true'] at block
  rw [view, block.1, block.2]
  rfl

/-- A gigabyte has a second-level table, whose blocks map what they did, or their own addresses if they were one block. -/
structure Split (t : Tables) (g : Nat) (t' : Tables) : Prop where
  root : pteIsTableDesc (t'.root g) = true
  roots : ∀ i, i ≠ g ∨ pteIsTableDesc (t.root g) = true → t'.root i = t.root i
  views : ∀ s < 2 ^ 18, view t' s =
    if s / 2 ^ 9 = g ∧ rootBlock t g = true then .block (s * 2 ^ 21) (attributes (t.root g)) else view t s
  leaves : t'.l3 = t.l3

/-- Two megabytes have a third-level table, which is empty if there was none. -/
structure Opened (t : Tables) (s : Nat) (t' : Tables) : Prop where
  here : view t' s = .table
  root : pteIsTableDesc (t'.root (s / 2 ^ 9)) = true
  roots : ∀ i, i ≠ s / 2 ^ 9 ∨ pteIsTableDesc (t.root (s / 2 ^ 9)) = true → t'.root i = t.root i
  views : ∀ i < 2 ^ 18, i ≠ s → view t' i =
    if i / 2 ^ 9 = s / 2 ^ 9 ∧ rootBlock t (s / 2 ^ 9) = true then .block (i * 2 ^ 21) (attributes (t.root (s / 2 ^ 9)))
    else view t i
  leaves : ∀ p, t'.l3 p = if p / 2 ^ 9 = s ∧ view t s ≠ .table then 0 else t.l3 p

theorem newTable_cases {place : Tables → Nat → Tables} (ran : newTable mm place = .ok (found, mm')) :
    (found = false ∧ mm'.tables = mm.tables) ∨ (found = true ∧ ∃ pa, mm'.tables = place mm.tables pa) := by
  unfold newTable at ran
  obtain ⟨⟨pa, buddy⟩, _, ran⟩ := bind_ok ran
  dsimp only at ran
  split at ran
  · obtain ⟨freed, _, ran⟩ := bind_ok ran
    cases ran
    exact .inl ⟨rfl, rfl⟩
  · rename_i tracked
    unfold spaceTrackTable at tracked
    split at tracked
    · cases tracked
    · cases tracked
      cases ran
      exact .inr ⟨rfl, pa, rfl⟩

theorem Split.made {fill : Nat → UInt64} (small : g < 2 ^ 9) (pa : Nat) (none : pteIsTableDesc (t.root g) = false)
    (fills : ∀ i < 2 ^ 9, view t (g * 2 ^ 9 + i) = .nothing ∧ rootBlock t g = false ∧ fill i = 0 ∨
      rootBlock t g = true ∧ fill i = splitBlock g (t.root g) i) :
    Split t g { t with root := Function.update t.root g (tableDesc pa), l2 := filled t.l2 g fill } where
  root := by
    show pteIsTableDesc (Function.update t.root g (tableDesc pa) g) = true
    rw [Function.update_self]
    exact tableDesc_table pa
  roots i other := by
    rcases other with other | table
    · exact Function.update_of_ne other ..
    · rw [none] at table
      cases table
  views s inside := by
    by_cases here : s / 2 ^ 9 = g
    · have index : s = g * 2 ^ 9 + s % 2 ^ 9 := by omega
      have word : filled t.l2 g fill s = fill (s % 2 ^ 9) := by rw [Walk.filled, if_pos here]
      have table : pteIsTableDesc (tableDesc pa) = true := tableDesc_table pa
      rw [view]
      simp only [here, Function.update_self, valid_of_table table, table, word, Bool.not_true, Bool.false_eq_true, if_false,
        true_and]
      rcases fills (s % 2 ^ 9) (Nat.mod_lt _ (by decide)) with ⟨nothing, plain, zero⟩ | ⟨block, split⟩
      · rw [zero, if_pos (show (!pteIsValid 0) = true by decide), plain, if_neg Bool.false_ne_true, index, nothing]
      · have flags := block
        rw [rootBlock, Bool.and_eq_true, Bool.not_eq_true'] at flags
        rw [split, if_pos block, splitBlock_valid, splitBlock_table, flags.1, flags.2, splitBlock_attributes, outputAddr,
          splitBlock_addr small (Nat.mod_lt _ (by decide))]
        simp only [Bool.not_true, Bool.false_eq_true, if_false, Bool.not_false, if_true, View.block.injEq, and_true]
        omega
    · rw [if_neg fun both => here both.1, view, view]
      simp only [Function.update_of_ne here, Walk.filled, if_neg here]
  leaves := rfl

theorem spaceEnsureL2_cases (ran : spaceEnsureL2 mm va = .ok (found, mm')) :
    (found = false ∧ mm'.tables = mm.tables) ∨ (found = true ∧ Split mm.tables (l1Index va) mm'.tables) := by
  have small : l1Index va < 2 ^ 9 := Nat.mod_lt _ (by decide)
  unfold spaceEnsureL2 at ran
  dsimp only at ran
  split at ran
  · rename_i invalid
    rw [Bool.not_eq_true'] at invalid
    refine (newTable_cases ran).imp_right fun ⟨found, pa, tables⟩ => ⟨found, tables ▸ .made small pa ?_ fun i inside => .inl ?_⟩
    · by_contra table
      rw [valid_of_table (by simpa using table)] at invalid
      cases invalid
    · have index : (l1Index va * 2 ^ 9 + i) / 2 ^ 9 = l1Index va := by omega
      refine ⟨?_, by rw [rootBlock, invalid, Bool.false_and], rfl⟩
      rw [view, index, invalid]
      rfl
  · rename_i valid
    split at ran
    · rename_i table
      cases ran
      refine .inr ⟨rfl, table, fun _ _ => rfl, fun s _ => (if_neg fun both => ?_).symm, rfl⟩
      rw [rootBlock, table, Bool.not_true, Bool.and_false] at both
      exact absurd both.2 (by decide)
    · rename_i block
      rw [Bool.not_eq_true] at block
      refine (newTable_cases ran).imp_right fun ⟨found, pa, tables⟩ => ⟨found, tables ▸ .made small pa block fun i inside => .inr ?_⟩
      refine ⟨?_, rfl⟩
      rw [rootBlock, block, Bool.not_false, Bool.and_true]
      simpa using valid

theorem spaceEnsureL3_cases (ran : spaceEnsureL3 mm va = .ok (found, mm')) :
    (found = false ∧ (mm'.tables = mm.tables ∨ Split mm.tables (l1Index va) mm'.tables)) ∨
      (found = true ∧ Opened mm.tables (l3Index va) mm'.tables) := by
  have small : l3Index va < 2 ^ 18 := Nat.mod_lt _ (by decide)
  have upper : l3Index va / 2 ^ 9 = l1Index va := l3Index_div va
  unfold spaceEnsureL3 at ran
  obtain ⟨⟨ready, mm₁⟩, ensured, ran⟩ := bind_ok ran
  rcases spaceEnsureL2_cases ensured with ⟨rfl, same⟩ | ⟨rfl, split⟩
  · cases ran
    exact .inl ⟨rfl, .inl same⟩
  · simp only [Bool.not_true, Bool.false_eq_true, if_false] at ran
    have here : view mm₁.tables (l3Index va) = if !pteIsValid (mm₁.tables.l2 (l3Index va)) then .nothing
        else if !pteIsTableDesc (mm₁.tables.l2 (l3Index va)) then
          .block (outputAddr (mm₁.tables.l2 (l3Index va)) (2 ^ 21) 0) (attributes (mm₁.tables.l2 (l3Index va)))
        else .table := by
      rw [view, upper]
      simp only [split.root, valid_of_table split.root, Bool.not_true, Bool.false_eq_true, if_false]
    have before := split.views (l3Index va) small
    rw [upper] at before
    split at ran
    · rename_i absent
      rcases newTable_cases ran with ⟨rfl, same⟩ | ⟨rfl, pa, placed⟩
      · exact .inl ⟨rfl, .inr (same ▸ split)⟩
      · refine .inr ⟨rfl, ?_⟩
        rw [placed]
        refine ⟨?_, upper.symm ▸ split.root, upper.symm ▸ split.roots, fun i inside other => ?_, fun p => ?_⟩
        · have table := tableDesc_table pa
          rw [view, upper]
          simp only [split.root, valid_of_table split.root, Function.update_self, table, valid_of_table table, Bool.not_true,
            Bool.false_eq_true, if_false]
        · rw [upper, ← split.views i inside, view, view]
          simp only [Function.update_of_ne other]
        · -- The new table is not in the place of another one.
          have free : view mm.tables (l3Index va) ≠ .table := by
            intro table
            have plain : rootBlock mm.tables (l1Index va) ≠ true := by
              intro block
              rw [view_rootBlock (upper.symm ▸ block)] at table
              cases table
            rw [if_neg fun both => plain both.2, table, here] at before
            split at before
            · cases before
            · rename_i valid
              split at before
              · cases before
              · rename_i isTable
                simp only [Bool.not_eq_true', Bool.not_eq_false] at valid isTable
                simp [valid, isTable] at absent
          show filled mm₁.tables.l3 (l3Index va) (fun _ => 0) p = _
          rw [filled, split.leaves]
          by_cases inside : p / 2 ^ 9 = l3Index va
          · rw [if_pos inside, if_pos ⟨inside, free⟩]
          · rw [if_neg inside, if_neg fun both => inside both.1]
    · rename_i present
      cases ran
      rw [Bool.not_eq_true, Bool.or_eq_false_iff, Bool.not_eq_false', Bool.not_eq_false'] at present
      have table : view mm'.tables (l3Index va) = .table := by
        rw [here, present.1, present.2]
        rfl
      refine .inr ⟨rfl, table, upper.symm ▸ split.root, upper.symm ▸ split.roots, fun i inside _ => ?_, fun p => ?_⟩
      · rw [upper, split.views i inside]
      · have same : view mm.tables (l3Index va) = .table := by
          rw [table] at before
          split at before
          · cases before
          · exact before.symm
        rw [if_neg fun both => both.2 same, split.leaves]

end

end Enlil.Mmu.Walk
