import Enlil.Mmu.SpaceAccounts

/-! The trampoline and copy-on-write clones keep the accounts of all spaces. -/

namespace Enlil.Mmu

open Pmm

section

variable {reserved : Nat → Bool} {shared : Nat → Prop} {held outer : Nat → Nat} {s s' : State} {space : Space}
  {i page : Nat} {mapped : Bool}

theorem mapTrampoline_cases (ran : mapTrampoline s i space = .ok (mapped, s')) :
    (mapped = true ∧ s' = s) ∨
    ∃ pa buddy memory found mm,
      ((s.signalTrampPa = 0 ∧ physAllocPage s.buddy = .ok (pa, buddy) ∧
          memory = storeWords (memZero s.memory pa pageSize) pa sigtrampCode) ∨
        (s.signalTrampPa ≠ 0 ∧ pa = s.signalTrampPa ∧ buddy = physRetainPage s.buddy pa ∧ memory = s.memory)) ∧
      mapUserPagesRaw ⟨buddy, memory, space⟩ mmuUserSigtrampVa pa ⟨false, true⟩ 1 = .ok (found, mm) ∧
      ((found = true ∧ mapped = true ∧ s' = { s.put i mm with signalTrampPa := pa }) ∨
        (found = false ∧ mapped = false ∧ ∃ freed, physFreePage mm.buddy pa = .ok freed ∧
          s' = { s.put i { mm with buddy := freed } with signalTrampPa := pa })) := by
  unfold mapTrampoline at ran
  split at ran
  · cases ran
    exact Or.inl ⟨rfl, rfl⟩
  · refine Or.inr ?_
    by_cases first : s.signalTrampPa = 0
    · simp only [first, if_true] at ran
      obtain ⟨⟨pa, buddy⟩, allocated, ran⟩ := bind_ok ran
      obtain ⟨s₁, setup, ran⟩ := bind_ok ran
      cases setup
      obtain ⟨⟨found, mm⟩, raw, ran⟩ := bind_ok ran
      refine ⟨pa, buddy, _, found, mm, Or.inl ⟨first, allocated, rfl⟩, raw, ?_⟩
      cases found with
      | true =>
        cases ran
        exact Or.inl ⟨rfl, rfl, rfl⟩
      | false =>
        obtain ⟨freed, dropped, ran⟩ := bind_ok ran
        cases ran
        exact Or.inr ⟨rfl, rfl, freed, dropped, rfl⟩
    · simp only [first, if_false] at ran
      obtain ⟨s₁, setup, ran⟩ := bind_ok ran
      cases setup
      obtain ⟨⟨found, mm⟩, raw, ran⟩ := bind_ok ran
      refine ⟨s.signalTrampPa, _, _, found, mm, Or.inr ⟨first, rfl, rfl, rfl⟩, raw, ?_⟩
      cases found with
      | true =>
        cases ran
        exact Or.inl ⟨rfl, rfl, rfl⟩
      | false =>
        obtain ⟨freed, dropped, ran⟩ := bind_ok ran
        cases ran
        exact Or.inr ⟨rfl, rfl, freed, dropped, rfl⟩

/-- The trampoline's page, once there is one, is still referred to, and no other space may write it. -/
def TrampolineReady (reserved : Nat → Bool) (shared : Nat → Prop) (held : Nat → Nat) (s : State) (i : Nat) : Prop :=
  ∃ idx, s.signalTrampPa = idxToPa idx ∧ idx < numPages ∧
    (Pooled reserved idx → held idx + s.allRefs idx ≠ 0 ∧ held idx + s.allRefs idx < 65535) ∧
    (Private reserved shared idx → ∀ j other index pte, j ≠ i → s.spaces j = some other →
      other.leaves.get? index = some pte → holds pte.pa idx = true → pte.writable = false)

theorem holds_idxToPa {idx : Nat} (low : idx < numPages) : holds (idxToPa idx) page = true ↔ page = idx := by
  rw [holds_pteAddr (pteAddr_idxToPa low)]
  simp only [idxToPa, pageSize]
  omega

theorem Settled.mono {hand : Nat → Nat} {mm : Mm} {shared' : Nat → Prop} (settled : Settled reserved shared outer hand mm)
    (more : ∀ page, shared page → shared' page) : Settled reserved shared' outer hand mm :=
  ⟨settled.ledger, settled.tidy, fun leaf writable here own =>
    settled.sole leaf writable here ⟨own.1, fun given => own.2 (more _ given)⟩⟩

theorem Accounted.mapTrampoline (accounted : Accounted reserved shared held s) (here : s.spaces i = some space)
    (ready : s.signalTrampPa ≠ 0 → TrampolineReady reserved shared held s i)
    (ran : mapTrampoline s i space = .ok (mapped, s')) : Accounted reserved shared held s' := by
  rcases mapTrampoline_cases ran with ⟨_, rfl⟩ | ⟨pa, buddy, memory, found, mm, setup, raw, rest⟩
  · exact accounted
  have settled := accounted.settled here
  have inside := accounted.slots here
  -- One reference to the page is in hand, and the page is fresh or written by no other space.
  obtain ⟨idx, rfl, low, inHand, known⟩ : ∃ idx, pa = idxToPa idx ∧ idx < numPages ∧
      Settled reserved shared (s.outerRefs held i) (fun page => 0 + refOf (idxToPa idx) page) ⟨buddy, memory, space⟩ ∧
      (Private reserved shared idx → s.outerRefs held i idx ≠ 0 → ∀ j other index pte, j ≠ i →
        s.spaces j = some other → other.leaves.get? index = some pte → holds pte.pa idx = true →
        pte.writable = false) := by
    rcases setup with ⟨_, allocated, rfl⟩ | ⟨some, rfl, rfl, rfl⟩
    · obtain ⟨idx, rfl, pooled, unheld, _, _, ledger⟩ := settled.fresh allocated
      refine ⟨idx, rfl, pooled.1, ⟨ledger.congr fun page _ => ?_, settled.tidy, settled.sole⟩,
        fun _ outside => absurd unheld outside⟩
      dsimp only [State.mm]
      omega
    · obtain ⟨idx, same, low, out, readOnly⟩ := ready some
      refine ⟨idx, same, low, ?_, fun own _ => readOnly own⟩
      have retained := @Settled.retainHand _ _ _ _ _ s.signalTrampPa settled fun page held' pooled => by
        rw [same] at held'
        obtain rfl := (holds_idxToPa low).mp held'
        have total := out pooled
        rw [allRefs_split inside, refsAt_some here] at total
        simpa [State.mm] using total
      rw [same] at retained
      simp only [same]
      exact retained
  -- While the page is mapped it counts as shared.
  have run : Settled reserved (fun page => shared page ∨ page = idx) (s.outerRefs held i)
      (fun page => 0 + refsOf (idxToPa idx) 1 page) ⟨buddy, memory, space⟩ :=
    (inHand.mono fun _ => Or.inl).rebook (inHand.ledger.congr fun page _ => by simp only [refsOf]; omega)
  obtain ⟨apart, written, k, bound, all, settled'⟩ := Settled.mapUserPagesRaw 1 run (by omega)
    (fun page above below own => absurd (Or.inr (by omega)) own.2) raw
  have keeps : ∀ (mm' : Mm), mm'.space = mm.space →
      Settled reserved (fun page => shared page ∨ page = idx) (s.outerRefs held i) (fun _ => 0) mm' →
      Accounted reserved shared held { s.put i mm' with signalTrampPa := idxToPa idx } := by
    intro mm' same settled'
    have put : Accounted reserved shared held (s.put i mm') := by
      refine accounted.replace here ⟨settled'.ledger, settled'.tidy, ?_⟩ fun page own outside now => ?_
      · intro index pte page leaf writable held' own
        by_cases its : page = idx
        · -- The trampoline itself is not writable, so the leaf was there before.
          rw [same] at leaf
          rcases written leaf writable with write | before
          · cases write
          · exact accounted.sole here before writable held' own
        · exact settled'.sole leaf writable held' ⟨own.1, fun given => given.elim own.2 its⟩
      · by_cases its : page = idx
        · subst its
          exact Or.inr (known own outside)
        · rw [same] at now
          exact Or.inl (apart.refs page ⟨own.1, fun given => given.elim own.2 its⟩ outside now)
    exact ⟨put.slots, put.ledger, put.tidy, put.sole⟩
  rcases rest with ⟨rfl, _, rfl⟩ | ⟨rfl, _, freed, dropped, rfl⟩
  · obtain rfl : k = 1 := all.mp rfl
    exact keeps mm rfl (settled'.rebook (settled'.ledger.congr fun page _ => by simp only [Nat.sub_self, refsOf]))
  · have none : k = 0 := by
      have := mt all.mpr (by simp)
      omega
    subst none
    have last : Settled reserved (fun page => shared page ∨ page = idx) (s.outerRefs held i)
        (fun page => 0 + refOf (idxToPa idx) page) mm :=
      settled'.rebook (settled'.ledger.congr fun page _ => by simp only [refsOf, Nat.add_zero])
    exact keeps _ rfl (last.freeHand dropped)

@[simp] theorem cowPte_writable (pte : Pte) : (cowPte pte).writable = false := by
  unfold cowPte
  split <;> simp_all

@[simp] theorem cowPte_pa (pte : Pte) : (cowPte pte).pa = pte.pa := by
  unfold cowPte
  split <;> rfl

theorem cowPte_cowPte (pte : Pte) : cowPte (cowPte pte) = cowPte pte := by
  obtain ⟨pa, writable, cow, exec⟩ := pte
  cases writable <;> cases cow <;> rfl

theorem pageIndex_mul (low : page < 2 ^ 27) : pageIndex (page * pageSize) = page := by
  simp only [pageIndex, pageSize]
  omega

/-- What sharing some leaves of a parent has done to the child and to the parent. -/
structure Shared (reserved : Nat → Bool) (shared : Nat → Prop) (outer : Nat → Nat) (child child' : Mm)
    (parent parent' : Space) : Prop where
  settled : Settled reserved shared outer (fun _ => 0) child'
  readOnly : ∀ {index pte}, child'.space.leaves.get? index = some pte → pte.writable = false
  memory : child'.memory = child.memory
  tidy : Tidy parent'
  same : ∀ page, spaceRefs parent' page = spaceRefs parent page
  weaker : ∀ {index pte}, parent'.leaves.get? index = some pte →
    ∃ old, parent.leaves.get? index = some old ∧ (pte = old ∨ pte = cowPte old)
  refs : ∀ page, outer page ≠ 0 → spaceRefs child'.space page ≠ 0 →
    spaceRefs child.space page ≠ 0 ∨ spaceRefs parent page ≠ 0

theorem protectLeaf {parent : Space} {pte : Pte} (tidy : Tidy parent) (present : parent.leaves.get? page = some pte) :
    Tidy { parent with leaves := parent.leaves.set page (cowPte pte) } ∧
      ∀ page', spaceRefs { parent with leaves := parent.leaves.set page (cowPte pte) } page' = spaceRefs parent page' := by
  refine ⟨⟨tidy.tables, tidy.parent, fun {index other} leaf => ?_⟩, fun page' => ?_⟩
  · rw [SortedMap.get?_set] at leaf
    split at leaf
    · rename_i same
      cases leaf
      rw [same, cowPte_pa]
      exact tidy.backed present
    · exact tidy.backed leaf
  · have counted := SortedMap.count_set_old (cowPte pte) (fun other : Pte => holds other.pa page') present
    rw [cowPte_pa] at counted
    simp only [spaceRefs, leafRefs, tableRefs]
    omega

theorem Settled.cloneLeaves (entries : List (Nat × Pte)) : ∀ {child child' : Mm} {parent parent' : Space},
    Settled reserved shared outer (fun _ => 0) child →
    (∀ {index pte}, child.space.leaves.get? index = some pte → pte.writable = false) → Tidy parent →
    (entries.Pairwise fun first second => first.1 < second.1) →
    (∀ entry ∈ entries, parent.leaves.get? entry.1 = some entry.2) →
    (∀ entry ∈ entries, child.space.leaves.get? entry.1 = none) →
    (∀ page, Pooled reserved page → listRefs (entries.map fun entry => entry.2.pa) page ≠ 0 →
      outer page ≠ 0 ∧
        outer page + spaceRefs child.space page + listRefs (entries.map fun entry => entry.2.pa) page ≤ 65535) →
    cloneLeaves child parent entries = .ok (mapped, child', parent') →
    Shared reserved shared outer child child' parent parent' ∧
      (mapped = true → ∀ index pte, parent'.leaves.get? index = some pte → pte.writable = true →
        parent.leaves.get? index = some pte ∧ ∀ entry ∈ entries, entry.1 ≠ index) := by
  induction entries with
  | nil =>
    intro child child' parent parent' settled readOnly tidy _ _ _ _ ran
    cases ran
    exact ⟨⟨settled, readOnly, rfl, tidy, fun _ => rfl, fun leaf => ⟨_, leaf, Or.inl rfl⟩, fun _ _ now => Or.inl now⟩,
      fun _ index pte leaf _ => ⟨leaf, nofun⟩⟩
  | cons entry rest ih =>
    intro child child' parent parent' settled readOnly tidy sorted members absent room ran
    obtain ⟨page, pte⟩ := entry
    obtain ⟨below, restSorted⟩ := List.pairwise_cons.mp sorted
    have present := members _ List.mem_cons_self
    obtain ⟨low, _, whole⟩ := tidy.backed present
    rw [Mmu.cloneLeaves] at ran
    obtain ⟨⟨found, child₁⟩, ensured, ran⟩ := bind_ok ran
    obtain ⟨settled₁, apart₁, refs₁, table⟩ := settled.ensureL3 ensured
    obtain ⟨memory₁, leaves₁, _, _⟩ := spaceEnsureL3_frame ensured
    dsimp only at ran
    have fresh : ∀ page', outer page' ≠ 0 → spaceRefs child₁.space page' = spaceRefs child.space page' :=
      fun page' some => refs₁ page' (by omega)
    cases found with
    | false =>
      cases ran
      refine ⟨⟨settled₁, fun leaf => readOnly (by rw [← leaves₁]; exact leaf), memory₁, tidy, fun _ => rfl,
        fun leaf => ⟨_, leaf, Or.inl rfl⟩, fun page' some now => Or.inl (by rw [← fresh page' some]; exact now)⟩,
        fun no => by cases no⟩
    | true =>
      simp only [Bool.not_true, Bool.false_eq_true, if_false] at ran
      have absent₁ : child₁.space.leaves.get? page = none := by
        rw [leaves₁]
        exact absent _ List.mem_cons_self
      have retained := @Settled.retainHand _ _ _ _ _ pte.pa settled₁ fun page' held pooled => by
        obtain ⟨some, bound⟩ := room page' pooled (by simp [listRefs, refOf_eq, held])
        rw [fresh page' some]
        simp only [listRefs, List.map_cons, List.sum_cons, refOf_eq pte.pa, held, Bool.toNat_true] at bound
        omega
      have handed : Settled reserved shared outer (fun page' => 0 + refOf (cowPte pte).pa page')
          { child₁ with buddy := physRetainPage child₁.buddy pte.pa } := by
        rw [cowPte_pa]
        exact retained
      have put := @Settled.putLeaf _ _ _ _ _ (page * pageSize) _ handed (by rw [pageIndex_mul low]; exact absent₁) (table rfl)
        (by rw [cowPte_pa]; exact whole) fun writable => by simp at writable
      rw [pageIndex_mul low] at put
      obtain ⟨tidy₂, same₂⟩ := protectLeaf tidy present
      have refs₂ : ∀ page', spaceRefs
          ({ child₁ with buddy := physRetainPage child₁.buddy pte.pa }.setLeaf page (cowPte pte)).space page' =
          spaceRefs child₁.space page' + refOf pte.pa page' := fun page' => by
        simp only [Mm.setLeaf, spaceRefs_setLeaf absent₁, cowPte_pa]
      have other : ∀ entry ∈ rest, entry.1 ≠ page := fun entry member => (below entry member).ne'
      obtain ⟨done, all⟩ := ih put (fun {index pte'} leaf => by
          simp only [Mm.setLeaf, SortedMap.get?_set] at leaf
          split at leaf
          · cases leaf
            exact cowPte_writable pte
          · exact readOnly (by rw [← leaves₁]; exact leaf)) tidy₂ restSorted
        (fun entry member => by
          rw [SortedMap.get?_set_of_ne _ _ (other entry member)]
          exact members entry (List.mem_cons_of_mem _ member))
        (fun entry member => by
          simp only [Mm.setLeaf]
          rw [SortedMap.get?_set_of_ne _ _ (other entry member), leaves₁]
          exact absent entry (List.mem_cons_of_mem _ member))
        (fun page' pooled some => by
          obtain ⟨out, bound⟩ := room page' pooled (by
            simp only [listRefs, List.map_cons, List.sum_cons] at some ⊢
            omega)
          refine ⟨out, ?_⟩
          rw [refs₂, fresh page' out]
          simp only [listRefs, List.map_cons, List.sum_cons] at bound ⊢
          omega) ran
      refine ⟨⟨done.settled, done.readOnly, done.memory.trans memory₁, done.tidy,
        fun page' => (done.same page').trans (same₂ page'), fun {index pte'} leaf => ?_, fun page' some now => ?_⟩,
        fun yes index pte' leaf writable => ?_⟩
      · obtain ⟨old, before, changed⟩ := done.weaker leaf
        rw [SortedMap.get?_set] at before
        split at before
        · rename_i its
          cases before
          refine ⟨pte, by rw [its]; exact present, Or.inr ?_⟩
          rcases changed with rfl | rfl
          · rfl
          · exact cowPte_cowPte pte
        · exact ⟨old, before, changed⟩
      · rcases done.refs page' some now with mine | parents
        · rw [refs₂, fresh page' some] at mine
          by_cases held : holds pte.pa page' = true
          · exact Or.inr (spaceRefs_pos present held)
          · rw [refOf_eq, Bool.eq_false_iff.mpr held] at mine
            exact Or.inl (by simpa using mine)
        · exact Or.inr (by rw [← same₂]; exact parents)
      · obtain ⟨before, others⟩ := all yes index pte' leaf writable
        rw [SortedMap.get?_set] at before
        split at before
        · cases before
          simp at writable
        · rename_i apart
          refine ⟨before, fun entry member => ?_⟩
          rcases List.mem_cons.mp member with rfl | member
          · exact Ne.symm apart
          · exact others entry member

theorem Settled.copyStack (n : Nat) : ∀ {child child' : Mm} {cur : Nat},
    Settled reserved shared outer (fun _ => 0) child → copyStack child cur n = .ok child' →
    Settled reserved shared outer (fun _ => 0) child' ∧ Apart reserved shared outer child child' := by
  induction n with
  | zero =>
    intro child child' cur settled ran
    cases ran
    exact ⟨settled, .refl _⟩
  | succ n ih =>
    intro child child' cur settled ran
    rw [Mmu.copyStack] at ran
    split at ran
    · obtain ⟨⟨done, child₁⟩, made, ran⟩ := bind_ok ran
      obtain ⟨settled₁, apart₁, _⟩ := settled.mmuMakePrivatePage made
      obtain ⟨settled', apart'⟩ := ih settled₁ ran
      exact ⟨settled', apart₁.trans apart'⟩
    · exact ih settled ran

/-- What a clone can do. -/
theorem mmuSpaceCloneCow_cases {parent stackCopyStart : Nat} {created : Option Nat}
    (ran : mmuSpaceCloneCow s parent stackCopyStart = .ok (created, s')) :
    (created = none ∧ s' = s) ∨
    ∃ space i s₁ root mapped child parentSpace, s.spaces parent = some space ∧
      mmuSpaceCreate s = .ok (some i, s₁) ∧ s₁.spaces i = some root ∧
      cloneLeaves { s₁.mm root with space := { root with mmapBase := space.mmapBase } } space space.leaves.entries =
        .ok (mapped, child, parentSpace) ∧
      ((mapped = false ∧ created = none ∧
          mmuSpaceDestroy
            ({ s₁ with spaces := Function.update s₁.spaces parent (some parentSpace) }.put i child) i = .ok s') ∨
        (mapped = true ∧ created = some i ∧
          ∃ child', copyStack child (pageMask stackCopyStart) (stackPages stackCopyStart) = .ok child' ∧
            s' = { s₁ with spaces := Function.update s₁.spaces parent (some parentSpace) }.put i child')) := by
  unfold mmuSpaceCloneCow at ran
  split at ran
  · cases ran
    exact Or.inl ⟨rfl, rfl⟩
  · rename_i space here
    obtain ⟨⟨made, s₁⟩, creation, ran⟩ := bind_ok ran
    have cases := mmuSpaceCreate_cases creation
    dsimp only at ran
    split at ran
    · cases ran
      rcases cases with ⟨_, rfl⟩ | ⟨_, _, _, no, _⟩
      · exact Or.inl ⟨rfl, rfl⟩
      · cases no
    · rename_i i
      split at ran
      · rename_i missing
        rcases cases with ⟨no, _⟩ | ⟨j, pa, buddy, same, _, _, _, rfl⟩
        · cases no
        · cases same
          simp at missing
      · rename_i root found
        refine Or.inr ⟨space, i, s₁, root, ?_⟩
        obtain ⟨⟨mapped, child, parentSpace⟩, cloned, ran⟩ := bind_ok ran
        refine ⟨mapped, child, parentSpace, here, creation, found, cloned, ?_⟩
        dsimp only at ran
        cases mapped with
        | false =>
          obtain ⟨s₂, destroyed, ran⟩ := bind_ok ran
          cases ran
          exact Or.inl ⟨rfl, rfl, destroyed⟩
        | true =>
          obtain ⟨child', copied, ran⟩ := bind_ok ran
          cases ran
          exact Or.inr ⟨rfl, rfl, child', copied, rfl⟩

/-- The counters of the pages that a space maps have room for as many mappings more. -/
def MayClone (reserved : Nat → Bool) (held : Nat → Nat) (s : State) (space : Space) : Prop :=
  ∀ page, Pooled reserved page → leafRefs space page ≠ 0 →
    held page + s.allRefs page + leafRefs space page ≤ 65535

theorem Accounted.mmuSpaceCloneCow {parent stackCopyStart : Nat} {created : Option Nat}
    (accounted : Accounted reserved shared held s)
    (may : ∀ space, s.spaces parent = some space → MayClone reserved held s space)
    (ran : mmuSpaceCloneCow s parent stackCopyStart = .ok (created, s')) : Accounted reserved shared held s' := by
  rcases mmuSpaceCloneCow_cases ran with ⟨_, rfl⟩ | ⟨space, i, s₁, root, mapped, child, parentSpace, here, creation,
    found, cloned, rest⟩
  · exact accounted
  have accounted₁ := accounted.mmuSpaceCreate creation
  rcases mmuSpaceCreate_cases creation with ⟨no, _⟩ | ⟨_, pa, buddy, same, inside, free, allocated, after⟩
  · cases no
  cases same
  obtain ⟨rootPage, rfl, _, rootKernel, rootUnused, _⟩ := accounted.fresh allocated
  have apart : parent ≠ i := by
    rintro rfl
    rw [free] at here
    cases here
  have others₁ : ∀ j, j ≠ i → s₁.spaces j = s.spaces j := fun j other => by
    rw [after]
    exact Function.update_of_ne other _ _
  have isRoot : root = emptySpace (idxToPa rootPage) := by
    rw [after] at found
    simpa using found.symm
  have here₁ : s₁.spaces parent = some space := (others₁ parent apart).trans here
  have tidy := accounted.tidy here
  have leaves : ∀ page, listRefs (space.leaves.entries.map fun entry => entry.2.pa) page = leafRefs space page := fun page => by
    rw [leafRefs, count_holds, listRefs, List.map_map]
    rfl
  obtain ⟨settled₁, _⟩ := (accounted₁.settled found).retrack root.extents space.mmapBase
  have noLeaf : ∀ index, root.leaves.get? index = none := fun index => by rw [isRoot]; rfl
  obtain ⟨done, all⟩ := settled₁.cloneLeaves space.leaves.entries
    (fun {index pte} leaf => by cases (noLeaf index).symm.trans leaf) tidy space.leaves.sorted
    (fun entry member => SortedMap.get?_eq_some.mpr member) (fun entry _ => noLeaf entry.1)
    (fun page pooled some => by
      rw [leaves] at some ⊢
      have part : leafRefs space page ≤ s.refsAt parent page := by
        rw [refsAt_some here, spaceRefs]
        omega
      have among := @refsAt_le_outer held s _ _ apart (accounted.slots here) page
      rw [outerRefs_congr others₁]
      refine ⟨by omega, ?_⟩
      -- The root of the child is a fresh page, which the parent does not map.
      have none : spaceRefs root page = 0 := by
        rw [isRoot, spaceRefs_empty]
        refine refOf_other ?_
        rw [pageOf_idxToPa]
        rintro rfl
        have := outerRefs_of_unreferred (s := s) inside rootKernel rootUnused
        omega
      have bound := may space here page pooled some
      rw [allRefs_split inside, refsAt_none free] at bound
      show s.outerRefs held i page + spaceRefs root page + leafRefs space page ≤ 65535
      omega) cloned
  -- The parent has its references under weaker permissions.
  have others₂ : ∀ j, j ≠ parent → (Function.update s₁.spaces parent (some parentSpace)) j = s₁.spaces j :=
    fun j other => Function.update_of_ne other _ _
  have mine₂ : (Function.update s₁.spaces parent (some parentSpace)) parent = some parentSpace :=
    Function.update_self _ _ _
  rcases rest with ⟨rfl, _, destroyed⟩ | ⟨rfl, _, child', copied, rfl⟩
  · -- The child is given back, and the parent stays as it was left.
    unfold Mmu.mmuSpaceDestroy at destroyed
    rw [put_spaces_self] at destroyed
    obtain ⟨freed, dropped, destroyed⟩ := bind_ok destroyed
    have ledger : Ledger reserved (s₁.outerRefs held i) freed :=
      freeAll_ledger child.space.heldPages (done.settled.ledger.congr fun page _ => by
        rw [done.settled.tidy.heldPages_refs, Nat.add_zero]) dropped
    cases destroyed
    refine accounted.reprotect here (fun j other => ?_) ?_ (ledger.congr fun page _ => ?_) done.tidy done.same
      fun {index pte} leaf writable => ?_
    · by_cases its : j = i
      · subst its
        rw [free]
        exact Function.update_self _ _ _
      · rw [← others₁ j its, ← others₂ j other]
        exact (Function.update_of_ne its _ _).trans (Function.update_of_ne its _ _)
    · exact (Function.update_of_ne apart _ _).trans ((Function.update_of_ne apart _ _).trans mine₂)
    · rw [outerRefs_congr others₁, allRefs_split inside, refsAt_none free, Nat.add_zero]
    · obtain ⟨old, before, same | same⟩ := done.weaker leaf
      · rw [same]
        exact before
      · rw [same, cowPte_writable] at writable
        cases writable
  · -- Neither side may write what both map, so the child may refer to it.
    have none : ∀ {index pte}, parentSpace.leaves.get? index = some pte → pte.writable = false := by
      intro index pte leaf
      by_contra writable
      obtain ⟨before, others⟩ := all rfl index pte leaf (by simpa using writable)
      exact others _ (SortedMap.get?_eq_some.mp before) rfl
    have accounted₂ : Accounted reserved shared held
        { s₁ with spaces := Function.update s₁.spaces parent (some parentSpace) } :=
      accounted₁.reprotect here₁ others₂ mine₂ accounted₁.ledger done.tidy done.same fun {index pte} leaf writable => by
        rw [none leaf] at writable
        cases writable
    generalize eq : ({ s₁ with spaces := Function.update s₁.spaces parent (some parentSpace) } : State) = s₂ at *
    have other : ∀ j, j ≠ parent → s₂.spaces j = s₁.spaces j := fun j apart' => by
      rw [← eq]
      exact others₂ j apart'
    have mine : s₂.spaces parent = some parentSpace := by
      rw [← eq]
      exact mine₂
    have found₂ : s₂.spaces i = some root := (other i (Ne.symm apart)).trans found
    have outer : s₂.outerRefs held i = s₁.outerRefs held i := by
      funext page
      refine congrArg (held page + ·) (Finset.sum_congr rfl fun j _ => ?_)
      by_cases its : j = parent
      · rw [its, refsAt_some mine, refsAt_some here₁, done.same]
      · rw [State.refsAt, State.refsAt, other j its]
    have settled₂ := done.settled
    rw [← outer] at settled₂
    have accounted₃ : Accounted reserved shared held (s₂.put i child) := by
      refine accounted₂.replace found₂ settled₂ fun page own some now => ?_
      rw [outer] at some
      rcases done.refs page some now with root | parents
      · exact Or.inl root
      · refine Or.inr fun j space' index pte apart' found' leaf held' => ?_
        by_contra writable
        replace writable : pte.writable = true := by simpa using writable
        by_cases its : j = parent
        · subst its
          cases mine.symm.trans found'
          rw [none leaf] at writable
          cases writable
        · -- A third space that may write the page would be the only one to refer to it.
          have alone := (outerRefs_eq_zero.mp (accounted₂.sole found' leaf writable held' own)).2 parent
            (Ne.symm its) (accounted₁.slots here₁)
          rw [refsAt_some mine, done.same] at alone
          exact parents alone
    obtain ⟨settled', apart'⟩ := (accounted₃.settled (put_spaces_self s₂ i child)).copyStack _ copied
    have final := accounted₃.put (put_spaces_self s₂ i child) settled' apart'
    have twice : (s₂.put i child).put i child' = s₂.put i child' := by
      simp only [State.put, Function.update_idem]
    rw [twice] at final
    exact final

end

end Enlil.Mmu
