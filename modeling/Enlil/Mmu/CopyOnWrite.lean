import Enlil.Mmu.RegionAccounts

/-! Breaking the sharing of a page: in place only if nobody else refers to it, else over a fresh copy. -/

namespace Enlil.Mmu

open Pmm

section

variable {reserved : Nat → Bool} {shared : Nat → Prop} {outer hand : Nat → Nat} {mm mm' : Mm} {space : Space}
  {va pa page oldPa newPa : Nat} {pte : Pte} {found : Bool} {buddy : Buddy}

theorem rewritePte_pa (oldPa newPa : Nat) (pte : Pte) :
    (rewritePte oldPa newPa pte).pa = if pte.pa = oldPa then pteAddr newPa else pte.pa := by
  unfold rewritePte pteMakeUserRw
  split_ifs <;> simp_all

theorem leafRefs_rewrite (entries : List (Nat × Pte)) (page : Nat) :
    (entries.countP fun entry => holds (rewritePte oldPa newPa entry.2).pa page) +
        (entries.countP fun entry => decide (entry.2.pa = oldPa)) * refOf oldPa page =
      (entries.countP fun entry => holds entry.2.pa page) +
        (entries.countP fun entry => decide (entry.2.pa = oldPa)) * refOf (pteAddr newPa) page := by
  have each : ∀ pte : Pte, (holds (rewritePte oldPa newPa pte).pa page).toNat +
      (decide (pte.pa = oldPa)).toNat * refOf oldPa page =
      (holds pte.pa page).toNat + (decide (pte.pa = oldPa)).toNat * refOf (pteAddr newPa) page := by
    intro pte
    rw [rewritePte_pa, refOf_eq, refOf_eq]
    by_cases same : pte.pa = oldPa
    · simp [same, Nat.add_comm]
    · simp [same]
  have bit : ∀ b : Bool, (if b = true then 1 else 0) = b.toNat := by decide
  induction entries with
  | nil => simp
  | cons entry rest ih =>
    have head := each entry.2
    simp only [List.countP_cons, bit, Nat.add_mul]
    omega

theorem spaceRefs_rewrite (space : Space) (page : Nat) :
    spaceRefs { space with leaves := space.leaves.mapValues (rewritePte oldPa newPa) } page +
        mmuCountSpacePaMappings space oldPa * refOf oldPa page =
      spaceRefs space page + mmuCountSpacePaMappings space oldPa * refOf (pteAddr newPa) page := by
  have moved := @leafRefs_rewrite oldPa newPa space.leaves.entries page
  simp only [spaceRefs, leafRefs, tableRefs, mmuCountSpacePaMappings, SortedMap.count_mapValues]
  simp only [SortedMap.count] at *
  omega

theorem Tidy.leaves_le (tidy : Tidy space) : space.leaves.size ≤ 8192 := by
  have distinct : (space.leaves.entries.map Prod.fst).Nodup :=
    List.pairwise_map.mpr (space.leaves.sorted.imp fun less => less.ne)
  have tables : (space.l3Tables.entries.map Prod.fst).toFinset.card ≤ mmuMaxSpaceTables := by
    have count := tidy.tables
    have bound := List.toFinset_card_le (space.l3Tables.entries.map Prod.fst)
    simp only [List.length_map, Space.tableCount, SortedMap.size] at *
    omega
  have counted : (space.leaves.entries.map Prod.fst).toFinset.card ≤
      512 * (space.l3Tables.entries.map Prod.fst).toFinset.card := by
    refine Finset.card_le_mul_card_image_of_maps_to (f := fun page => page / 2 ^ 9) (fun page member => ?_) 512
      fun table _ => ?_
    · obtain ⟨entry, inMap, rfl⟩ := List.mem_map.mp (List.mem_toFinset.mp member)
      obtain ⟨_, present, _⟩ := tidy.backed (SortedMap.get?_eq_some.mpr inMap)
      obtain ⟨below, found⟩ := Option.isSome_iff_exists.mp present
      exact List.mem_toFinset.mpr (List.mem_map.mpr ⟨_, SortedMap.get?_eq_some.mp found, rfl⟩)
    · -- The pages of one table are the numbers in one interval.
      have interval : {page ∈ (space.leaves.entries.map Prod.fst).toFinset | page / 2 ^ 9 = table} ⊆
          Finset.Ico (table * 512) (table * 512 + 512) := fun page member => by
        have := (Finset.mem_filter.mp member).2
        rw [Finset.mem_Ico]
        omega
      simpa using Finset.card_le_card interval
  rw [List.toFinset_card_of_nodup distinct, List.length_map] at counted
  unfold SortedMap.size mmuMaxSpaceTables at *
  omega

theorem Tidy.mappings_le (tidy : Tidy space) (pa : Nat) : mmuCountSpacePaMappings space pa ≤ 8192 :=
  (List.countP_le_length).trans tidy.leaves_le

theorem Settled.retainTimes (n : Nat) (settled : Settled reserved shared outer hand mm)
    (out : ∀ page, holds pa page = true → Pooled reserved page →
      outer page + hand page + spaceRefs mm.space page ≠ 0 ∧
        outer page + hand page + spaceRefs mm.space page + n ≤ 65535) :
    Settled reserved shared outer (fun page => hand page + n * refOf pa page)
      { mm with buddy := retainTimes mm.buddy pa n } := by
  induction n with
  | zero => simpa [Mmu.retainTimes] using settled
  | succ n ih =>
    have before := ih fun page held pooled => by
      obtain ⟨some, room⟩ := out page held pooled
      omega
    have after := @Settled.retainHand _ _ _ _ _ pa before fun page held pooled => by
      obtain ⟨some, room⟩ := out page held pooled
      simp only [refOf_eq, held, Bool.toNat_true]
      omega
    rw [Mmu.retainTimes]
    exact after.rebook (after.ledger.congr fun page _ => by ring)

theorem Settled.freeTimes (n : Nat) : ∀ {freed : Buddy} {hand : Nat → Nat},
    Settled reserved shared outer (fun page => hand page + n * refOf pa page) mm →
    freeTimes mm.buddy pa n = .ok freed → Settled reserved shared outer hand { mm with buddy := freed } := by
  induction n with
  | zero =>
    intro freed hand settled ran
    cases ran
    exact settled.rebook (settled.ledger.congr fun page _ => by ring)
  | succ n ih =>
    intro freed hand settled ran
    rw [Mmu.freeTimes] at ran
    obtain ⟨first, dropped, ran⟩ := bind_ok ran
    have rest : Settled reserved shared outer (fun page => (hand page + refOf pa page) + n * refOf pa page) mm :=
      settled.rebook (settled.ledger.congr fun page _ => by ring)
    exact (ih rest dropped).freeHand ran

theorem Settled.rewrite {hand' : Nat → Nat} (settled : Settled reserved shared outer hand mm)
    (whole : pteAddr newPa = newPa)
    (trade : ∀ page, hand page + mmuCountSpacePaMappings mm.space oldPa * refOf oldPa page =
      hand' page + mmuCountSpacePaMappings mm.space oldPa * refOf newPa page)
    (alone : ∀ page, holds newPa page = true → Private reserved shared page → outer page = 0) :
    Settled reserved shared outer hand'
        { mm with space := { mm.space with leaves := mm.space.leaves.mapValues (rewritePte oldPa newPa) } } ∧
      Apart reserved shared outer mm
        { mm with space := { mm.space with leaves := mm.space.leaves.mapValues (rewritePte oldPa newPa) } } := by
  have moved := fun page => @spaceRefs_rewrite oldPa newPa mm.space page
  refine ⟨⟨settled.ledger.congr fun page _ => ?_, ⟨settled.tidy.tables, settled.tidy.parent, ?_⟩, ?_⟩,
    fun _ _ _ _ _ => rfl, fun page own some here => ?_⟩
  · have := moved page
    have := trade page
    rw [whole] at *
    dsimp only
    omega
  · intro index pte leaf
    rw [SortedMap.get?_mapValues] at leaf
    obtain ⟨old, before, rfl⟩ := Option.map_eq_some_iff.mp leaf
    obtain ⟨low, table, same⟩ := settled.tidy.backed before
    refine ⟨low, table, ?_⟩
    rw [rewritePte_pa]
    split
    · exact pteAddr_pteAddr newPa
    · exact same
  · intro index pte page leaf writable here own
    rw [SortedMap.get?_mapValues] at leaf
    obtain ⟨old, before, rfl⟩ := Option.map_eq_some_iff.mp leaf
    by_cases same : old.pa = oldPa
    · rw [rewritePte_pa, if_pos same, whole] at here
      exact alone page here own
    · have kept : rewritePte oldPa newPa old = old := by rw [rewritePte, if_pos same]
      rw [kept] at writable here
      exact settled.sole before writable here own
  · have := moved page
    by_cases mine : holds newPa page = true
    · exact absurd (alone page mine own) some
    · rw [whole, refOf_eq newPa, (by simpa using mine : holds newPa page = false)] at this
      simp only [Bool.toNat_false, Nat.mul_zero, Nat.add_zero] at this
      dsimp only at here
      omega

theorem Settled.alone_of_refcount (settled : Settled reserved shared outer hand mm)
    (few : (physPageRefcount mm.buddy pa).toNat ≤ mmuCountSpacePaMappings mm.space pa)
    (mapped : mmuCountSpacePaMappings mm.space pa ≠ 0) (held : holds pa page = true) (pooled : Pooled reserved page) :
    outer page = 0 := by
  simp only [holds, Bool.and_eq_true, Bool.not_eq_true', decide_eq_true_eq] at held
  obtain ⟨managed, rfl⟩ := held
  have counted : mmuCountSpacePaMappings mm.space pa ≤ leafRefs mm.space (pageOf pa) := by
    refine List.countP_mono_left fun entry _ same => ?_
    have same : entry.2.pa = pa := decide_eq_true_eq.mp same
    simp [holds, managed, same]
  have refs := settled.ledger.refs pooled (by unfold spaceRefs; omega)
  rw [physPageRefcount, managed] at few
  simp only [Bool.false_eq_true, if_false, UInt16.toNat_toUInt32, refs] at few
  unfold spaceRefs at few
  omega

theorem mappings_pos {index : Nat} (present : space.leaves.get? index = some pte) :
    0 < mmuCountSpacePaMappings space pte.pa :=
  show 0 < space.leaves.count fun other : Pte => decide (other.pa = pte.pa) from SortedMap.count_pos present (by simp)

theorem Settled.mmuMakePrivatePage {forceCopy : Bool} (settled : Settled reserved shared outer (fun _ => 0) mm)
    (ran : mmuMakePrivatePage mm va forceCopy = .ok (found, mm')) :
    Settled reserved shared outer (fun _ => 0) mm' ∧ Apart reserved shared outer mm mm' ∧
      (found = true → (validPte mm'.space va).any Pte.writable = true) := by
  unfold Mmu.mmuMakePrivatePage at ran
  split at ran
  · cases ran
    exact ⟨settled, .refl _, fun no => by cases no⟩
  · rename_i pte present
    split at ran
    · cases ran
      exact ⟨settled, .refl _, fun yes => by simp [present, yes]⟩
    · rename_i cow
      replace cow : pte.cow = true := by simpa using cow
      have leaf := present
      rw [settled.tidy.validPte_eq] at leaf
      obtain ⟨_, _, whole⟩ := settled.tidy.backed leaf
      have some := mappings_pos leaf
      -- The descriptor at the address is one of those that are rewritten.
      have written : ∀ newPa, rewritePte pte.pa newPa pte = pteMakeUserRw pte newPa := fun newPa => by
        simp [rewritePte, cow]
      have here : ∀ (mm₂ : Mm) newPa, Tidy mm₂.space →
          mm₂.space.leaves = mm.space.leaves.mapValues (rewritePte pte.pa newPa) →
          (validPte mm₂.space va).any Pte.writable = true := fun mm₂ newPa tidy leaves => by
        rw [tidy.validPte_eq, leaves, SortedMap.get?_mapValues, leaf, Option.map_some, written]
        rfl
      split at ran
      · rename_i last
        simp only [Bool.and_eq_true, decide_eq_true_eq] at last
        simp only [mmuRewriteSpacePaMappings, ne_eq, not_true_eq_false, if_false] at ran
        cases ran
        obtain ⟨settled', apart'⟩ := @Settled.rewrite _ _ _ _ _ _ _ (fun _ => 0) settled whole (fun _ => rfl)
          fun page held own => settled.alone_of_refcount last.2 (by omega) held own.1
        exact ⟨settled', apart', fun _ => here _ _ settled'.tidy rfl⟩
      · obtain ⟨⟨newPa, buddy⟩, allocated, ran⟩ := bind_ok ran
        dsimp only [mmuRewriteSpacePaMappings] at ran
        obtain ⟨copy, rfl, pooled, unheld, _, unused, ledger⟩ := settled.fresh allocated
        have wholeCopy := pteAddr_idxToPa pooled.1
        have only : ∀ page, holds (idxToPa copy) page = true → page = copy := fun page held => by
          have := (holds_pteAddr wholeCopy).mp held
          simp only [idxToPa, pageSize] at this
          omega
        have other : idxToPa copy ≠ pte.pa := fun same =>
          spaceRefs_pos leaf (by rw [← same]; exact (holds_pteAddr wholeCopy).mpr ⟨rfl, pooled.1⟩) unused
        have bound := settled.tidy.mappings_le pte.pa
        rw [if_pos other] at ran
        -- The copy gets one reference for each mapping that moves to it.
        have copied : Settled reserved shared outer (fun page => 0 + refOf (idxToPa copy) page)
            { mm with buddy, memory := memcpy mm.memory (idxToPa copy) mm.memory pte.pa pageSize } :=
          ⟨ledger.congr fun page _ => by dsimp only; omega, settled.tidy, settled.sole⟩
        have apartCopy : Apart reserved shared outer mm
            { mm with buddy, memory := memcpy mm.memory (idxToPa copy) mm.memory pte.pa pageSize } := by
          refine Apart.of_memory fun page own some offset inside => ?_
          have apart : page ≠ copy := by
            rintro rfl
            exact some unheld
          rw [memcpy, if_neg]
          simp only [idxToPa, pageSize] at inside ⊢
          omega
        have retained := @Settled.retainTimes _ _ _ _ _ (idxToPa copy)
          (mmuCountSpacePaMappings mm.space pte.pa - 1) copied fun page held _ => by
            rw [only page held, unheld, refOf_eq, (holds_pteAddr wholeCopy).mpr ⟨rfl, pooled.1⟩, unused]
            simp only [Bool.toNat_true]
            omega
        obtain ⟨moved, apartMove⟩ := @Settled.rewrite _ _ _ _ _ pte.pa (idxToPa copy)
          (fun page => 0 + mmuCountSpacePaMappings mm.space pte.pa * refOf pte.pa page) retained wholeCopy
          (fun page => by
            obtain ⟨count, counted⟩ : ∃ count, mmuCountSpacePaMappings mm.space pte.pa = count + 1 :=
              ⟨mmuCountSpacePaMappings mm.space pte.pa - 1, by omega⟩
            simp only [counted, Nat.add_sub_cancel]
            ring)
          fun page held _ => by rw [only page held, unheld]
        rw [if_neg (by omega)] at ran
        obtain ⟨freed, dropped, ran⟩ := bind_ok ran
        cases ran
        have settled' := moved.freeTimes _ dropped
        exact ⟨settled', apartCopy.trans ⟨apartMove.bytes, apartMove.refs⟩, fun _ => here _ _ settled'.tidy rfl⟩

theorem Settled.prepareWritePages (n : Nat) : ∀ {mm : Mm} {cur : Nat}, Settled reserved shared outer (fun _ => 0) mm →
    prepareWritePages mm cur n = .ok (found, mm') →
    Settled reserved shared outer (fun _ => 0) mm' ∧ Apart reserved shared outer mm mm' := by
  induction n with
  | zero =>
    intro mm cur settled ran
    cases ran
    exact ⟨settled, .refl _⟩
  | succ n ih =>
    intro mm cur settled ran
    rw [Mmu.prepareWritePages] at ran
    split at ran
    · cases ran
      exact ⟨settled, .refl _⟩
    · split at ran
      · obtain ⟨⟨done, mm₁⟩, made, ran⟩ := bind_ok ran
        obtain ⟨settled₁, apart₁, _⟩ := settled.mmuMakePrivatePage made
        cases done with
        | true =>
          obtain ⟨settled', apart'⟩ := ih settled₁ ran
          exact ⟨settled', apart₁.trans apart'⟩
        | false =>
          cases ran
          exact ⟨settled₁, apart₁⟩
      · split at ran
        · exact ih settled ran
        · cases ran
          exact ⟨settled, .refl _⟩

theorem Settled.prepareWrite_chunk {chunk : Nat} (settled : Settled reserved shared outer (fun _ => 0) mm)
    (positive : 0 < chunk) (inside : va % pageSize + chunk ≤ pageSize)
    (ran : mmuSpacePrepareWrite mm va chunk = .ok (found, mm')) :
    Settled reserved shared outer (fun _ => 0) mm' ∧ Apart reserved shared outer mm mm' ∧
      (found = true → (validPte mm'.space va).any Pte.writable = true) := by
  unfold mmuSpacePrepareWrite at ran
  split at ran
  · cases ran
    exact ⟨settled, .refl _, fun no => by cases no⟩
  · have one : pagesTo va (va + chunk) = 1 := by
      simp only [pagesTo, pageMask, pageSize] at *
      omega
    rw [one] at ran
    obtain ⟨settled', apart'⟩ := settled.prepareWritePages 1 ran
    refine ⟨settled', apart', fun ready => ?_⟩
    subst ready
    have samePage : validPte mm'.space va = validPte mm'.space (pageMask va) := by
      refine validPte_samePage ?_
      simp only [pageMask, pageSize]
      omega
    rw [samePage]
    rw [Mmu.prepareWritePages] at ran
    split at ran
    · cases ran
    · rename_i entry looked
      split at ran
      · obtain ⟨⟨done, mm₁⟩, made, ran⟩ := bind_ok ran
        obtain ⟨_, _, writable⟩ := settled.mmuMakePrivatePage made
        cases done with
        | true =>
          cases ran
          exact writable rfl
        | false => cases ran
      · split at ran
        · rename_i writable
          cases ran
          simpa [validPte, looked] using writable
        · cases ran

theorem Settled.writePage {memory : Bytes} (settled : Settled reserved shared outer hand mm)
    (present : validPte mm.space va = some pte) (writable : pte.writable = true)
    (same : ∀ p, p < pte.pa ∨ pte.pa + pageSize ≤ p → memory p = mm.memory p) :
    Settled reserved shared outer hand { mm with memory } ∧ Apart reserved shared outer mm { mm with memory } := by
  rw [settled.tidy.validPte_eq] at present
  obtain ⟨_, _, whole⟩ := settled.tidy.backed present
  refine ⟨⟨settled.ledger, settled.tidy, settled.sole⟩, fun page own some offset inside => same _ ?_,
    fun _ _ _ here => here⟩
  by_contra meets
  -- The byte would be in the page of the leaf, which then is nobody else's.
  refine some (settled.sole present writable ((holds_pteAddr whole).mpr ⟨?_, own.1.1⟩) own)
  have aligned : pte.pa % pageSize = 0 := by
    rw [← whole]
    simp only [pteAddr, pageSize]
    omega
  simp only [idxToPa, pmmBase, pageSize] at *
  omega

theorem Settled.mmuHandleUserFault {far : Nat} {wnr : Bool} (settled : Settled reserved shared outer (fun _ => 0) mm)
    (ran : mmuHandleUserFault mm far wnr = .ok (found, mm')) :
    Settled reserved shared outer (fun _ => 0) mm' ∧ Apart reserved shared outer mm mm' := by
  unfold Mmu.mmuHandleUserFault at ran
  split at ran
  · cases ran
    exact ⟨settled, .refl _⟩
  · obtain ⟨settled', apart', _⟩ := settled.mmuMakePrivatePage ran
    exact ⟨settled', apart'⟩

theorem Settled.mmuSpacePrepareWrite {size : Nat} (settled : Settled reserved shared outer (fun _ => 0) mm)
    (ran : mmuSpacePrepareWrite mm va size = .ok (found, mm')) :
    Settled reserved shared outer (fun _ => 0) mm' ∧ Apart reserved shared outer mm mm' := by
  unfold Mmu.mmuSpacePrepareWrite at ran
  split at ran
  · cases ran
    exact ⟨settled, .refl _⟩
  · exact settled.prepareWritePages _ ran

/-- The second try of a store: it writes if the page is writable now. -/
def storeReady (va : Nat) (byte : UInt8) (ready : Bool × Mm) : Bool × Mm :=
  match validPte ready.2.space va with
  | some pte =>
    if ready.1 && pte.writable then
      (true, { ready.2 with memory := Function.update ready.2.memory (pte.pa + va % pageSize) byte })
    else (false, ready.2)
  | none => (false, ready.2)

theorem userStore_eq (mm : Mm) (va : Nat) (byte : UInt8) :
    userStore mm va byte = (if (validPte mm.space va).any Pte.writable then .ok (true, mm)
      else mmuHandleUserFault mm va true) >>= fun ready => .ok (storeReady va byte ready) := by
  have tail : ∀ ready : Bool × Mm, (match validPte ready.2.space va with
      | some pte =>
        if (ready.1 && pte.writable) = true then
          (pure (true, { ready.2 with memory := Function.update ready.2.memory (pte.pa + va % pageSize) byte }) :
            Except Halt (Bool × Mm))
        else pure (false, ready.2)
      | none => pure (false, ready.2)) = .ok (storeReady va byte ready) := by
    intro ready
    unfold storeReady
    split
    · split <;> rfl
    · rfl
  unfold userStore
  split
  · exact tail (true, mm)
  · exact congrArg _ (funext tail)

theorem Settled.userStore {byte : UInt8} (settled : Settled reserved shared outer (fun _ => 0) mm)
    (ran : userStore mm va byte = .ok (found, mm')) :
    Settled reserved shared outer (fun _ => 0) mm' ∧ Apart reserved shared outer mm mm' := by
  rw [userStore_eq] at ran
  obtain ⟨⟨handled, mm₁⟩, first, ran⟩ := bind_ok ran
  have ready : Settled reserved shared outer (fun _ => 0) mm₁ ∧ Apart reserved shared outer mm mm₁ := by
    split at first
    · cases first
      exact ⟨settled, .refl _⟩
    · exact settled.mmuHandleUserFault first
  obtain ⟨settled₁, apart₁⟩ := ready
  rw [Except.ok.injEq, storeReady] at ran
  dsimp only at ran
  split at ran
  · rename_i pte present
    split at ran
    · rename_i may
      cases ran
      rw [Bool.and_eq_true] at may
      have offset := Nat.mod_lt va (show 0 < pageSize by decide)
      obtain ⟨settled', apart'⟩ := @Settled.writePage _ _ _ _ _ _ _
        (Function.update mm₁.memory (pte.pa + va % pageSize) byte) settled₁ present may.2 fun p outside => Function.update_of_ne (by omega) _ _
      exact ⟨settled', apart₁.trans apart'⟩
    · cases ran
      exact ⟨settled₁, apart₁⟩
  · cases ran
    exact ⟨settled₁, apart₁⟩

theorem Settled.writeUserFrom {data : Bytes} {uva size : Nat} (fuel : Nat) : ∀ {mm : Mm} {written : Nat},
    Settled reserved shared outer (fun _ => 0) mm → writeUserFrom mm uva data written size fuel = .ok (found, mm') →
    Settled reserved shared outer (fun _ => 0) mm' ∧ Apart reserved shared outer mm mm' := by
  induction fuel with
  | zero =>
    intro mm written settled ran
    rw [Mmu.writeUserFrom, Except.ok.injEq, Prod.mk.injEq] at ran
    obtain ⟨_, rfl⟩ := ran
    exact ⟨settled, .refl _⟩
  | succ fuel ih =>
    intro mm written settled ran
    rw [Mmu.writeUserFrom] at ran
    split at ran
    · cases ran
      exact ⟨settled, .refl _⟩
    · dsimp only at ran
      obtain ⟨positive, fits, inside, _⟩ :=
        @chunkAt_bounds ((uva + written) % 2 ^ 64) _ (show 0 < size - written by omega)
      obtain ⟨⟨ready, mm₁⟩, prepared, ran⟩ := bind_ok ran
      obtain ⟨settled₁, apart₁, writable⟩ := settled.prepareWrite_chunk positive inside prepared
      cases ready with
      | false =>
        cases ran
        exact ⟨settled₁, apart₁⟩
      | true =>
        simp only [Bool.not_true, Bool.false_eq_true, if_false] at ran
        split at ran
        · cases ran
          exact ⟨settled₁, apart₁⟩
        · rename_i pte present
          have may : pte.writable = true := by
            have ready := writable rfl
            rwa [present] at ready
          obtain ⟨settled₂, apart₂⟩ := @Settled.writePage _ _ _ _ _ _ _ (memcpy mm₁.memory
              (pte.pa + (uva + written) % 2 ^ 64 % pageSize) data written
              (chunkAt ((uva + written) % 2 ^ 64) (size - written))) settled₁ present may fun p outside => by
            rw [memcpy, if_neg (by omega)]
          obtain ⟨settled', apart'⟩ := ih settled₂ ran
          exact ⟨settled', (apart₁.trans apart₂).trans apart'⟩

end

end Enlil.Mmu
