import Enlil.Mmu.CloneAccounts

/-! Runs of the memory manager's calls, with the references that the kernel itself holds. -/

namespace Enlil.Mmu

open Pmm AlignedBlock

/-- The memory manager together with who else refers to its pages. -/
structure Session where
  state : State
  /-- The references of the kernel itself to each page. -/
  held : Nat → Nat
  /-- The pages that were given to be mapped in several spaces, for as long as anybody refers to them. -/
  given : Nat → Bool

/-- The calls and events of a run. -/
inductive Op where
  | create
  | trampoline (i : Nat)
  | map (i start size : Nat) (prot : Prot)
  | mapAnywhere (i size : Nat) (prot : Prot)
  | mapPhys (i start pa size : Nat) (prot : Prot) (retain : Bool)
  | mapPhysAnywhere (i pa size : Nat) (prot : Prot) (retain : Bool)
  | aliasRegion (i aliasStart srcStart size : Nat) (prot : Prot)
  | unmap (i start size : Nat)
  | clone (parent stackCopyStart : Nat)
  | destroy (i : Nat)
  /-- A fault of user code. -/
  | fault (i far : Nat) (wnr : Bool)
  /-- A store of user code. -/
  | store (i va : Nat) (byte : UInt8)
  | prepareWrite (i va size : Nat)
  | writeUser (i va : Nat) (data : Bytes) (size : Nat)
  /-- The kernel takes a block for itself. -/
  | kernelAlloc (order : Nat)
  /-- The kernel drops one of its references to a page. -/
  | kernelFree (pa : Nat)

/-- The references to a page. -/
def Session.refs (s : Session) (page : Nat) : Nat := s.held page + s.state.allRefs page

/-- The session after a call: pages that nobody refers to any more are not given to anyone. -/
def Session.after (s : Session) (state : State) : Session :=
  { s with state, given := fun page => s.given page && decide (s.held page + state.allRefs page ≠ 0) }

/-- The session with the pages of a range given to be shared. -/
def Session.give (s : Session) (pa count : Nat) : Session :=
  { s with given := fun page => s.given page ||
      (List.range count).any fun k => holds (pteAddr (pa + k * pageSize)) page }

/-- What each call does. -/
def exec (s : Session) : Op → Except Halt Session
  | .create => do
    let (_, state) ← mmuSpaceCreate s.state
    return s.after state
  | .trampoline i => do
    let (_, state) ← mmuSpaceMapSignalTrampoline s.state i
    return s.after state
  | .map i start size prot => do
    let (_, state) ← onSpace s.state i false fun mm => mmuMapUserRegion mm start size prot
    return s.after state
  | .mapAnywhere i size prot => do
    let (_, state) ← onSpace s.state i none fun mm => mmuMapUserAnywhere mm size prot
    return s.after state
  | .mapPhys i start pa size prot retain => do
    let (_, state) ← onSpace s.state i false fun mm => mmuMapUserPhysRegion mm start pa size prot retain
    return (s.give pa (size / pageSize)).after state
  | .mapPhysAnywhere i pa size prot retain => do
    let (_, state) ← onSpace s.state i none fun mm => mmuMapUserPhysAnywhere mm pa size prot retain
    return (s.give pa (alignSize size / pageSize)).after state
  | .aliasRegion i aliasStart srcStart size prot => do
    let (_, state) ← onSpace s.state i false fun mm => mmuAliasUserRegion mm aliasStart srcStart size prot
    return s.after state
  | .unmap i start size => do
    let (_, state) ← onSpace s.state i false fun mm => mmuUnmapUserRegion mm start size
    return s.after state
  | .clone parent stackCopyStart => do
    let (_, state) ← mmuSpaceCloneCow s.state parent stackCopyStart
    return s.after state
  | .destroy i => do
    let state ← mmuSpaceDestroy s.state i
    return s.after state
  | .fault i far wnr => do
    let (_, state) ← onSpace s.state i false fun mm => mmuHandleUserFault mm far wnr
    return s.after state
  | .store i va byte => do
    let (_, state) ← onSpace s.state i false fun mm => userStore mm va byte
    return s.after state
  | .prepareWrite i va size => do
    let (_, state) ← onSpace s.state i false fun mm => mmuSpacePrepareWrite mm va size
    return s.after state
  | .writeUser i va data size => do
    let (_, state) ← onSpace s.state i false fun mm => mmuWriteUser mm va data size
    return s.after state
  | .kernelAlloc order => do
    let (pa, buddy) ← physAllocPages s.state.buddy order
    return { s with
      state := { s.state with buddy }, held := fun page => s.held page + refsOf pa (2 ^ order) page }
  | .kernelFree pa => do
    let buddy ← physFreePage s.state.buddy pa
    return { s with held := fun page => s.held page - refOf pa page }.after { s.state with buddy }

/-- The session at boot, over the allocator's blocks and whatever memory holds. -/
def bootSession (reserved : Nat → Bool) (blocks : List (Nat × Nat)) (memory : Bytes) : Session :=
  ⟨mmuInit (bootBuddy reserved blocks) memory, fun _ => 0, fun _ => false⟩

/-- The page of an address can take a number of references more. -/
def Session.Room (reserved : Nat → Bool) (s : Session) (pa count : Nat) : Prop :=
  ∀ page, holds pa page = true → Pooled reserved page → s.refs page + count ≤ 65535

/-- Nothing is in the way of a region that is mapped, so that no block is left behind unmapped. -/
def FitsRegion (space : Space) (start size : Nat) : Prop :=
  inWindow start size = true → Fits space start (size / pageSize) (size / pageSize)

/-- Pages given to a mapping are retained by it, have room, and are held by the kernel if they are of the allocator. -/
def Session.MayGive (reserved : Nat → Bool) (s : Session) (pa count : Nat) (retain : Bool) : Prop :=
  retain = true ∧ ∀ k < count, s.Room reserved (pteAddr (pa + k * pageSize)) 1 ∧
    ∀ page, holds (pteAddr (pa + k * pageSize)) page = true → Pooled reserved page → s.held page ≠ 0

/-- The discipline of a run: regions fit, no counter passes its maximum, and the trampoline's page is still referred to. -/
def Allowed (reserved : Nat → Bool) (s : Session) : Op → Prop
  | .trampoline i => ∀ space, s.state.spaces i = some space → mmuLookupPte space mmuUserSigtrampVa = none →
      s.state.signalTrampPa ≠ 0 → s.Room reserved s.state.signalTrampPa 1 ∧
        ∀ page, holds s.state.signalTrampPa page = true → Pooled reserved page → s.refs page ≠ 0
  | .map i start size _ => ∀ space, s.state.spaces i = some space → FitsRegion space start size
  | .mapAnywhere i size _ => ∀ space start, s.state.spaces i = some space →
      spaceFindFreeGap space (alignSize size) = some start → FitsRegion space start (alignSize size)
  | .mapPhys _ _ pa size _ retain => s.MayGive reserved pa (size / pageSize) retain
  | .mapPhysAnywhere _ pa size _ retain => s.MayGive reserved pa (alignSize size / pageSize) retain
  | .aliasRegion i _ srcStart size _ => ∀ space, s.state.spaces i = some space → ∀ k < size / pageSize, ∀ pte,
      validPte space (srcStart + k * pageSize) = some pte → s.Room reserved pte.pa (size / pageSize)
  | .clone parent _ => ∀ space, s.state.spaces parent = some space → MayClone reserved s.held s.state space
  | .kernelFree pa => ∀ page, holds pa page = true → Pooled reserved page → s.held page ≠ 0
  | _ => True

/-- What a call must not do if spaces are to be isolated: let a page be written by one space and read by another without being given to both. -/
def Isolating (reserved : Nat → Bool) (shared : Nat → Prop) (s : Session) : Op → Prop
  | .trampoline i => ∀ space, s.state.spaces i = some space → mmuLookupPte space mmuUserSigtrampVa = none →
      s.state.signalTrampPa ≠ 0 → ∀ page, holds s.state.signalTrampPa page = true → Private reserved shared page →
      ∀ j other index pte, j ≠ i → s.state.spaces j = some other → other.leaves.get? index = some pte →
        holds pte.pa page = true → pte.writable = false
  | .mapPhys _ _ pa size _ _ => ∀ k < size / pageSize, ∀ page, holds (pteAddr (pa + k * pageSize)) page = true →
      shared page
  | .mapPhysAnywhere _ pa size _ _ => ∀ k < alignSize size / pageSize, ∀ page,
      holds (pteAddr (pa + k * pageSize)) page = true → shared page
  | .aliasRegion i _ srcStart size prot => prot.write = true → ∀ space, s.state.spaces i = some space →
      ∀ k < size / pageSize, ∀ pte, validPte space (srcStart + k * pageSize) = some pte →
      ∀ page, holds pte.pa page = true → Private reserved shared page → s.state.outerRefs s.held i page = 0
  | _ => True

/-- The trampoline's page is a managed one once it is there. -/
def TrampolinePlaced (state : State) : Prop :=
  state.signalTrampPa ≠ 0 → ∃ idx, state.signalTrampPa = idxToPa idx ∧ idx < numPages

section

variable {reserved : Nat → Bool} {shared : Nat → Prop} {held : Nat → Nat} {s s' : Session} {state state' : State}
  {i : Nat} {α : Type} {failed result : α} {call : Mm → Except Halt (α × Mm)}

theorem onSpace_cases (ran : onSpace state i failed call = .ok (result, state')) :
    state' = state ∨ ∃ space mm', state.spaces i = some space ∧ call (state.mm space) = .ok (result, mm') ∧
      state' = state.put i mm' := by
  unfold onSpace at ran
  split at ran
  · cases ran
    exact Or.inl rfl
  · rename_i space here
    obtain ⟨⟨result', mm'⟩, called, ran⟩ := bind_ok ran
    cases ran
    exact Or.inr ⟨space, mm', here, called, rfl⟩

theorem Accounted.onSpace (accounted : Accounted reserved shared held state)
    (keeps : ∀ space mm', state.spaces i = some space →
      Settled reserved shared (state.outerRefs held i) (fun _ => 0) (state.mm space) →
      call (state.mm space) = .ok (result, mm') →
      Settled reserved shared (state.outerRefs held i) (fun _ => 0) mm' ∧
        Apart reserved shared (state.outerRefs held i) (state.mm space) mm')
    (ran : Mmu.onSpace state i failed call = .ok (result, state')) :
    Accounted reserved shared held state' ∧ state'.signalTrampPa = state.signalTrampPa := by
  rcases onSpace_cases ran with rfl | ⟨space, mm', here, called, rfl⟩
  · exact ⟨accounted, rfl⟩
  · obtain ⟨settled, apart⟩ := keeps space mm' here (accounted.settled here) called
    exact ⟨accounted.put here settled apart, rfl⟩

theorem Settled.mapFits {outer : Nat → Nat} {mm mm' : Mm} {start size : Nat} {prot : Prot} {found : Bool}
    (settled : Settled reserved shared outer (fun _ => 0) mm) (fits : FitsRegion mm.space start size)
    (ran : Mmu.mmuMapUserRegion mm start size prot = .ok (found, mm')) :
    Settled reserved shared outer (fun _ => 0) mm' ∧ Apart reserved shared outer mm mm' := by
  refine settled.mmuMapUserRegion ran fun window => ?_
  unfold Mmu.mmuMapUserRegion at ran
  rw [window] at ran
  refine mapBlocks_fits _ (Nat.le_refl _) ?_ (fits window) ran
  have limit := (inWindow_iff.mp window).2.2.2.2
  simp only [mmuUserLimit, pageSize] at *
  omega

theorem Settled.raise {outer : Nat → Nat} {mm : Mm} (settled : Settled reserved shared outer (fun _ => 0) mm)
    (stop : Nat) : Settled reserved shared outer (fun _ => 0) (raiseMmapBase mm stop) ∧
      Apart reserved shared outer mm (raiseMmapBase mm stop) := by
  unfold raiseMmapBase
  split
  · exact settled.retrack mm.space.extents stop
  · exact ⟨settled, .refl _⟩

theorem Settled.mapAnywhere {outer : Nat → Nat} {mm mm' : Mm} {size : Nat} {prot : Prot} {found : Option Nat}
    (settled : Settled reserved shared outer (fun _ => 0) mm)
    (fits : ∀ start, spaceFindFreeGap mm.space (alignSize size) = some start → FitsRegion mm.space start (alignSize size))
    (ran : mmuMapUserAnywhere mm size prot = .ok (found, mm')) :
    Settled reserved shared outer (fun _ => 0) mm' ∧ Apart reserved shared outer mm mm' := by
  unfold mmuMapUserAnywhere at ran
  split at ran
  · cases ran
    exact ⟨settled, .refl _⟩
  · split at ran
    · cases ran
      exact ⟨settled, .refl _⟩
    · rename_i start gap
      obtain ⟨⟨mapped, mm₁⟩, region, ran⟩ := bind_ok ran
      obtain ⟨settled₁, apart₁⟩ := settled.mapFits (fits start gap) region
      cases mapped with
      | false =>
        cases ran
        exact ⟨settled₁, apart₁⟩
      | true =>
        cases ran
        obtain ⟨settled', apart'⟩ := settled₁.raise (start + alignSize size)
        exact ⟨settled', apart₁.trans apart'⟩

theorem Settled.mapPhysAnywhere {outer : Nat → Nat} {mm mm' : Mm} {pa size : Nat} {prot : Prot} {found : Option Nat}
    (settled : Settled reserved shared outer (fun _ => 0) mm)
    (may : ∀ k < alignSize size / pageSize, Mmu.MayGive reserved shared outer mm.space (pteAddr (pa + k * pageSize)))
    (ran : mmuMapUserPhysAnywhere mm pa size prot true = .ok (found, mm')) :
    Settled reserved shared outer (fun _ => 0) mm' ∧ Apart reserved shared outer mm mm' := by
  unfold mmuMapUserPhysAnywhere at ran
  split at ran
  · cases ran
    exact ⟨settled, .refl _⟩
  · split at ran
    · cases ran
      exact ⟨settled, .refl _⟩
    · rename_i start gap
      obtain ⟨⟨mapped, mm₁⟩, region, ran⟩ := bind_ok ran
      obtain ⟨settled₁, apart₁⟩ := settled.mmuMapUserPhysRegion may region
      cases mapped with
      | false =>
        cases ran
        exact ⟨settled₁, apart₁⟩
      | true =>
        cases ran
        obtain ⟨settled', apart'⟩ := settled₁.raise (start + alignSize size)
        exact ⟨settled', apart₁.trans apart'⟩

theorem refsAt_le_all {page : Nat} (inside : i < mmuMaxSpaces) : state.refsAt i page ≤ state.allRefs page :=
  Finset.single_le_sum (f := fun j => state.refsAt j page) (fun _ _ => Nat.zero_le _) (Finset.mem_range.mpr inside)

theorem Accounted.kernelAlloc {order pa : Nat} {buddy : Buddy} (accounted : Accounted reserved shared held state)
    (allocated : physAllocPages state.buddy order = .ok (pa, buddy)) :
    Accounted reserved shared (fun page => held page + refsOf pa (2 ^ order) page) { state with buddy } := by
  obtain ⟨_, unheld, ledger⟩ := accounted.ledger.allocPages allocated
  refine ⟨accounted.slots, ledger.congr fun page _ => ?_, accounted.tidy, ?_⟩
  · show held page + state.allRefs page + _ = held page + _ + state.allRefs page
    omega
  · intro i space found index pte page leaf writable here own
    obtain ⟨kernel, others⟩ := outerRefs_eq_zero.mp (accounted.sole found leaf writable here own)
    refine outerRefs_eq_zero.mpr ⟨?_, others⟩
    have referred := spaceRefs_pos leaf here
    rw [← refsAt_some (show state.spaces i = some space from found)] at referred
    have among : state.refsAt i page ≤ state.allRefs page := refsAt_le_all (accounted.slots found)
    by_contra some
    have zero := (unheld page (by omega)).2
    omega

theorem Accounted.kernelFree {pa : Nat} {buddy : Buddy} (accounted : Accounted reserved shared held state)
    (mine : ∀ page, holds pa page = true → Pooled reserved page → held page ≠ 0)
    (freed : physFreePage state.buddy pa = .ok buddy) :
    Accounted reserved shared (fun page => held page - refOf pa page) { state with buddy } := by
  have given : Ledger reserved (fun page => (held page - refOf pa page + state.allRefs page) + refOf pa page)
      state.buddy := accounted.ledger.congr fun page pooled => by
    rw [refOf_eq]
    cases here : holds pa page with
    | true =>
      have := mine page here pooled
      rw [Bool.toNat_true]
      omega
    | false => simp
  refine ⟨accounted.slots, given.freed freed, accounted.tidy, ?_⟩
  intro i space found index pte page leaf writable here own
  obtain ⟨kernel, others⟩ := outerRefs_eq_zero.mp (accounted.sole found leaf writable here own)
  exact outerRefs_eq_zero.mpr ⟨by omega, others⟩

theorem TrampolinePlaced.mapTrampoline {space : Space} {mapped : Bool}
    (accounted : Accounted reserved shared held state) (placed : TrampolinePlaced state)
    (ran : Mmu.mapTrampoline state i space = .ok (mapped, state')) : TrampolinePlaced state' := by
  rcases mapTrampoline_cases ran with ⟨_, rfl⟩ | ⟨pa, buddy, memory, found, mm, setup, _, rest⟩
  · exact placed
  have there : state'.signalTrampPa = pa := by
    rcases rest with ⟨_, _, rfl⟩ | ⟨_, _, freed, _, rfl⟩ <;> rfl
  intro some
  rw [there] at some ⊢
  rcases setup with ⟨_, allocated, _⟩ | ⟨before, rfl, _, _⟩
  · obtain ⟨idx, same, pooled, _⟩ := accounted.fresh allocated
    exact ⟨idx, same, pooled.1⟩
  · exact placed before

theorem mmuSpaceCreate_trampoline {created : Option Nat} (ran : mmuSpaceCreate state = .ok (created, state')) :
    state'.signalTrampPa = state.signalTrampPa := by
  rcases mmuSpaceCreate_cases ran with ⟨_, rfl⟩ | ⟨_, _, _, _, _, _, _, rfl⟩ <;> rfl

theorem mmuSpaceDestroy_trampoline (ran : mmuSpaceDestroy state i = .ok state') :
    state'.signalTrampPa = state.signalTrampPa := by
  unfold mmuSpaceDestroy at ran
  split at ran
  · cases ran
    rfl
  · obtain ⟨freed, _, ran⟩ := bind_ok ran
    cases ran
    rfl

theorem mmuSpaceCloneCow_trampoline {parent stackCopyStart : Nat} {created : Option Nat}
    (ran : mmuSpaceCloneCow state parent stackCopyStart = .ok (created, state')) :
    state'.signalTrampPa = state.signalTrampPa := by
  rcases mmuSpaceCloneCow_cases ran with ⟨_, rfl⟩ | ⟨_, _, _, _, _, _, _, _, creation, _, _, rest⟩
  · rfl
  · have first := mmuSpaceCreate_trampoline creation
    rcases rest with ⟨_, _, destroyed⟩ | ⟨_, _, _, _, rfl⟩
    · exact (mmuSpaceDestroy_trampoline destroyed).trans first
    · exact first

theorem exec_accounted {op : Op} (accounted : Accounted reserved shared s.held s.state)
    (placed : TrampolinePlaced s.state) (allow : Allowed reserved s op) (isolating : Isolating reserved shared s op)
    (ran : exec s op = .ok s') :
    Accounted reserved shared s'.held s'.state ∧ TrampolinePlaced s'.state := by
  have room : ∀ {space i}, s.state.spaces i = some space → ∀ page,
      s.refs page = s.state.outerRefs s.held i page + spaceRefs space page := fun {space i} here page => by
    rw [Session.refs, allRefs_split (accounted.slots here), refsAt_some here]
  have mayGive : ∀ {i space pa count retain}, s.state.spaces i = some space → s.MayGive reserved pa count retain →
      (∀ k < count, ∀ page, holds (pteAddr (pa + k * pageSize)) page = true → shared page) →
      retain = true ∧ ∀ k < count,
        Mmu.MayGive reserved shared (s.state.outerRefs s.held i) space (pteAddr (pa + k * pageSize)) := by
    intro i space pa count retain here may out
    refine ⟨may.1, fun k below page held pooled => ?_⟩
    obtain ⟨free, kernel⟩ := may.2 k below
    have bound := free page held pooled
    rw [room here] at bound
    have mine := kernel page held pooled
    refine ⟨?_, by omega, out k below page held⟩
    unfold State.outerRefs
    omega
  have stays : ∀ {state : State}, Accounted reserved shared s.held state ∧ state.signalTrampPa = s.state.signalTrampPa →
      Accounted reserved shared s.held state ∧ TrampolinePlaced state := fun {state} both => by
    refine ⟨both.1, ?_⟩
    unfold TrampolinePlaced
    rw [both.2]
    exact placed
  cases op with
  | create =>
    obtain ⟨⟨created, state⟩, called, ran⟩ := bind_ok ran
    cases ran
    exact stays ⟨accounted.mmuSpaceCreate called, mmuSpaceCreate_trampoline called⟩
  | trampoline i =>
    obtain ⟨⟨mapped, state⟩, called, ran⟩ := bind_ok ran
    cases ran
    unfold mmuSpaceMapSignalTrampoline at called
    split at called
    · cases called
      exact stays ⟨accounted, rfl⟩
    · rename_i space here
      cases looked : mmuLookupPte space mmuUserSigtrampVa with
      | some entry =>
        unfold Mmu.mapTrampoline at called
        rw [looked, Option.isSome_some, if_pos rfl] at called
        cases called
        exact stays ⟨accounted, rfl⟩
      | none =>
        refine ⟨accounted.mapTrampoline here (fun some => ?_) called, placed.mapTrampoline accounted called⟩
        obtain ⟨idx, same, low⟩ := placed some
        have itself : holds s.state.signalTrampPa idx = true := by
          rw [same]
          exact (holds_idxToPa low).mpr rfl
        obtain ⟨free, used⟩ := allow space here looked some
        refine ⟨idx, same, low, fun pooled => ?_, isolating space here looked some idx itself⟩
        have bound := free idx itself pooled
        have referred := used idx itself pooled
        simp only [Session.refs] at bound referred
        omega
  | map i start size prot =>
    obtain ⟨⟨_, state⟩, called, ran⟩ := bind_ok ran
    cases ran
    exact stays (accounted.onSpace (fun space _ here settled ran => settled.mapFits (allow space here) ran) called)
  | mapAnywhere i size prot =>
    obtain ⟨⟨_, state⟩, called, ran⟩ := bind_ok ran
    cases ran
    exact stays (accounted.onSpace (fun space _ here settled ran =>
      settled.mapAnywhere (fun start gap => allow space start here gap) ran) called)
  | mapPhys i start pa size prot retain =>
    obtain ⟨⟨_, state⟩, called, ran⟩ := bind_ok ran
    cases ran
    refine stays (accounted.onSpace (fun space _ here settled ran => ?_) called)
    obtain ⟨rfl, may⟩ := mayGive here allow isolating
    exact settled.mmuMapUserPhysRegion may ran
  | mapPhysAnywhere i pa size prot retain =>
    obtain ⟨⟨_, state⟩, called, ran⟩ := bind_ok ran
    cases ran
    refine stays (accounted.onSpace (fun space _ here settled ran => ?_) called)
    obtain ⟨rfl, may⟩ := mayGive here allow isolating
    exact settled.mapPhysAnywhere may ran
  | aliasRegion i aliasStart srcStart size prot =>
    obtain ⟨⟨_, state⟩, called, ran⟩ := bind_ok ran
    cases ran
    refine stays (accounted.onSpace (fun space _ here settled ran =>
      settled.mmuAliasUserRegion (fun k below pte source page held => ⟨fun pooled => ?_, fun write own => ?_⟩) ran) called)
    · have bound := allow space here k below pte source page held pooled
      rw [room here] at bound
      exact bound
    · exact isolating write space here k below pte source page held own
  | unmap i start size =>
    obtain ⟨⟨_, state⟩, called, ran⟩ := bind_ok ran
    cases ran
    exact stays (accounted.onSpace (fun _ _ _ settled ran => settled.mmuUnmapUserRegion ran) called)
  | clone parent stackCopyStart =>
    obtain ⟨⟨created, state⟩, called, ran⟩ := bind_ok ran
    cases ran
    exact stays ⟨accounted.mmuSpaceCloneCow allow called, mmuSpaceCloneCow_trampoline called⟩
  | destroy i =>
    obtain ⟨state, called, ran⟩ := bind_ok ran
    cases ran
    exact stays ⟨accounted.mmuSpaceDestroy called, mmuSpaceDestroy_trampoline called⟩
  | fault i far wnr =>
    obtain ⟨⟨_, state⟩, called, ran⟩ := bind_ok ran
    cases ran
    exact stays (accounted.onSpace (fun _ _ _ settled ran => settled.mmuHandleUserFault ran) called)
  | store i va byte =>
    obtain ⟨⟨_, state⟩, called, ran⟩ := bind_ok ran
    cases ran
    exact stays (accounted.onSpace (fun _ _ _ settled ran => settled.userStore ran) called)
  | prepareWrite i va size =>
    obtain ⟨⟨_, state⟩, called, ran⟩ := bind_ok ran
    cases ran
    exact stays (accounted.onSpace (fun _ _ _ settled ran => settled.mmuSpacePrepareWrite ran) called)
  | writeUser i va data size =>
    obtain ⟨⟨_, state⟩, called, ran⟩ := bind_ok ran
    cases ran
    exact stays (accounted.onSpace (fun _ _ _ settled ran => settled.writeUserFrom _ ran) called)
  | kernelAlloc order =>
    obtain ⟨⟨pa, buddy⟩, allocated, ran⟩ := bind_ok ran
    cases ran
    exact ⟨accounted.kernelAlloc allocated, placed⟩
  | kernelFree pa =>
    obtain ⟨buddy, freed, ran⟩ := bind_ok ran
    cases ran
    exact ⟨accounted.kernelFree allow freed, placed⟩

end

end Enlil.Mmu
