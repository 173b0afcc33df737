import Enlil.Mmu.References

/-! Copy-on-write isolation: a write through one space changes no byte that another one maps privately. -/

namespace Enlil.Mmu

open Pmm AlignedBlock

/-- The pages that are given to be shared once a call's own gifts are counted. -/
def Session.told (s : Session) : Op → Nat → Bool
  | .mapPhys _ _ pa size _ _ => (s.give pa (size / pageSize)).given
  | .mapPhysAnywhere _ pa size _ _ => (s.give pa (alignSize size / pageSize)).given
  | _ => s.given

/-- The discipline of a run whose spaces are isolated. -/
def Discreet (reserved : Nat → Bool) (s : Session) (op : Op) : Prop :=
  Allowed reserved s op ∧ Isolating reserved (fun page => s.told op page = true) s op

/-- The space through which a call or an event writes. -/
def Op.writer : Op → Option Nat
  | .fault i _ _ | .store i _ _ | .prepareWrite i _ _ | .writeUser i _ _ _ => some i
  | _ => none

/-- A descriptor maps a page of the allocator that was not given to several spaces. -/
def Session.Privately (reserved : Nat → Bool) (s : Session) (pte : Pte) : Prop :=
  ∃ page, holds pte.pa page = true ∧ Private reserved (fun page => s.given page = true) page

/-- A write through one space leaves the other spaces and the bytes of their private mappings alone. -/
def Session.Isolated (reserved : Nat → Bool) (s : Session) : Prop :=
  ∀ {op s' i j space va pte}, op.writer = some i → exec s op = .ok s' → j ≠ i → s.state.spaces j = some space →
    validPte space va = some pte → s.Privately reserved pte →
    s'.state.spaces j = some space ∧ userByte space s'.state.memory va = userByte space s.state.memory va

section

variable {reserved : Nat → Bool} {blocks : List (Nat × Nat)} {memory : Bytes} {s s' : Session} {op : Op}
  {shared shared' : Nat → Prop} {held : Nat → Nat} {state : State}

theorem Accounted.reshare (accounted : Accounted reserved shared held state)
    (kept : ∀ page, shared page → held page + state.allRefs page ≠ 0 → shared' page) :
    Accounted reserved shared' held state := by
  refine ⟨accounted.slots, accounted.ledger, accounted.tidy, ?_⟩
  intro i space found index pte page leaf writable here own
  refine accounted.sole found leaf writable here ⟨own.1, fun given => own.2 (kept page given ?_)⟩
  have referred := spaceRefs_pos leaf here
  rw [← refsAt_some found] at referred
  have among : state.refsAt i page ≤ state.allRefs page := refsAt_le_all (accounted.slots found)
  omega

theorem exec_given (ran : exec s op = .ok s') (page : Nat) (told : s.told op page = true)
    (some : s'.held page + s'.state.allRefs page ≠ 0) : s'.given page = true := by
  cases op
  case kernelAlloc =>
    obtain ⟨_, _, ran⟩ := bind_ok ran
    cases ran
    exact told
  all_goals
    obtain ⟨_, _, ran⟩ := bind_ok ran
    cases ran
    simp only [Session.after, Bool.and_eq_true, decide_eq_true_eq]
    exact ⟨told, some⟩

theorem run_discreet (tiles : Tiles reserved blocks)
    (run : Run exec (Discreet reserved) (bootSession reserved blocks memory) s) :
    Accounted reserved (fun page => s.given page = true) s.held s.state ∧ TrampolinePlaced s.state := by
  have step : ∀ {s s' : Session} {op : Op},
      Accounted reserved (fun page => s.given page = true) s.held s.state ∧ TrampolinePlaced s.state →
      Discreet reserved s op → exec s op = .ok s' →
      Accounted reserved (fun page => s'.given page = true) s'.held s'.state ∧ TrampolinePlaced s'.state := by
    intro s s' op inv allow returned
    have told : Accounted reserved (fun page => s.told op page = true) s.held s.state :=
      inv.1.reshare fun page given _ => by
        cases op <;> first | exact given | exact Bool.or_eq_true _ _ ▸ Or.inl given
    obtain ⟨accounted, placed⟩ := exec_accounted told inv.2 allow.1 allow.2 returned
    exact ⟨accounted.reshare (exec_given returned), placed⟩
  exact (Run.invariant ⟨boot_accounted tiles _ memory, boot_placed⟩ step run :
    (fun s : Session => Accounted reserved (fun page => s.given page = true) s.held s.state ∧
      TrampolinePlaced s.state) s)

theorem exec_write {i : Nat} (accounted : Accounted reserved shared s.held s.state) (writes : op.writer = some i)
    (ran : exec s op = .ok s') :
    s'.state = s.state ∨ ∃ space mm', s.state.spaces i = some space ∧ s'.state = s.state.put i mm' ∧
      Apart reserved shared (s.state.outerRefs s.held i) (s.state.mm space) mm' := by
  have each : ∀ {call : Mm → Except Halt (Bool × Mm)} {result : Bool} {state : State},
      (∀ {mm mm' : Mm} {found : Bool}, Settled reserved shared (s.state.outerRefs s.held i) (fun _ => 0) mm →
        call mm = .ok (found, mm') → Apart reserved shared (s.state.outerRefs s.held i) mm mm') →
      onSpace s.state i false call = .ok (result, state) →
      state = s.state ∨ ∃ space mm', s.state.spaces i = some space ∧ state = s.state.put i mm' ∧
        Apart reserved shared (s.state.outerRefs s.held i) (s.state.mm space) mm' := by
    intro call result state keeps called
    rcases onSpace_cases called with rfl | ⟨space, mm', here, ran, rfl⟩
    · exact Or.inl rfl
    · exact Or.inr ⟨space, mm', here, rfl, keeps (accounted.settled here) ran⟩
  cases op with
  | fault _ far wnr =>
    cases writes
    obtain ⟨⟨_, state⟩, called, ran⟩ := bind_ok ran
    cases ran
    exact each (fun settled ran => (settled.mmuHandleUserFault ran).2) called
  | store _ va byte =>
    cases writes
    obtain ⟨⟨_, state⟩, called, ran⟩ := bind_ok ran
    cases ran
    exact each (fun settled ran => (settled.userStore ran).2) called
  | prepareWrite _ va size =>
    cases writes
    obtain ⟨⟨_, state⟩, called, ran⟩ := bind_ok ran
    cases ran
    exact each (fun settled ran => (settled.mmuSpacePrepareWrite ran).2) called
  | writeUser _ va data size =>
    cases writes
    obtain ⟨⟨_, state⟩, called, ran⟩ := bind_ok ran
    cases ran
    exact each (fun settled ran => (settled.writeUserFrom _ ran).2) called
  | _ => cases writes

theorem Accounted.isolated (accounted : Accounted reserved (fun page => s.given page = true) s.held s.state) :
    s.Isolated reserved := by
  intro op s' i j space va pte writes ran apart here present ⟨page, held, own⟩
  rcases exec_write accounted writes ran with same | ⟨mine, mm', found, after, kept⟩
  · rw [same]
    exact ⟨here, rfl⟩
  · rw [after]
    refine ⟨(put_spaces_of_ne _ _ apart).trans here, ?_⟩
    rw [(accounted.tidy here).validPte_eq] at present
    obtain ⟨_, _, whole⟩ := (accounted.tidy here).backed present
    obtain ⟨address, _⟩ := (holds_pteAddr whole).mp held
    -- The page has a reference from this space, which is one of the others.
    have referred := spaceRefs_pos present held
    have among := @refsAt_le_outer s.held s.state _ _ apart (accounted.slots here) page
    rw [refsAt_some here] at among
    rw [userByte, userByte, (accounted.tidy here).validPte_eq, present, Option.map_some, Option.map_some, address]
    exact congrArg some (kept.bytes page own (by omega) _ (Nat.mod_lt _ (by decide)))

/-- In every run under the discipline the spaces are isolated. -/
theorem run_isolated (tiles : Tiles reserved blocks)
    (run : Run exec (Discreet reserved) (bootSession reserved blocks memory) s) : s.Isolated reserved :=
  (run_discreet tiles run).1.isolated

end

/-- The page that the stale trampoline maps is handed out again, shared with a clone, and miscounted by the unmaps. -/
def staleCopy : List Op := staleTrampoline ++
  [.map 2 (mmuUserSigtrampVa - pageSize) pageSize ⟨true, false⟩, .clone 2 0, .unmap 1 mmuUserSigtrampVa pageSize,
    .unmap 2 mmuUserSigtrampVa pageSize]

/-- Whether a store through the third space changes what the second one, its clone, reads from its own page. -/
def Session.leaks (s : Session) : Bool :=
  match s.state.spaces 1, exec s (.store 2 (mmuUserSigtrampVa - pageSize) 7) with
  | some space, .ok s' =>
    match validPte space (mmuUserSigtrampVa - pageSize) with
    | none => false
    | some pte => !unmanaged pte.pa && !kernelReserved (pageOf pte.pa) && !s.given (pageOf pte.pa) &&
        userByte space s'.state.memory (mmuUserSigtrampVa - pageSize) ≠
          userByte space s.state.memory (mmuUserSigtrampVa - pageSize)
  | _, _ => false

theorem staleCopy_found : ∃ s, Run exec (fun _ op => op.plain = true) emptyBoot s ∧ s.leaks = true := by
  have found : (runList exec (fun _ op => op.plain = true) emptyBoot staleCopy).any Session.leaks = true := by
    decide +kernel
  exact runList_any found

/-- Without the discipline a store of the parent changes a byte of its clone. -/
theorem run_not_isolated :
    ¬ ∀ (reserved : Nat → Bool) (blocks : List (Nat × Nat)) (memory : Bytes), Tiles reserved blocks →
      ∀ s, Run exec (Lawful reserved) (bootSession reserved blocks memory) s → s.Isolated reserved := by
  intro claim
  obtain ⟨s, run, found⟩ := staleCopy_found
  have isolated : s.Isolated kernelReserved := claim _ _ _ largestBlocks_tiles s (run.mono fun _ _ plain => Op.plain_lawful plain)
  unfold Session.leaks at found
  split at found
  · rename_i space s' here stored
    split at found
    · cases found
    · rename_i pte present
      simp only [Bool.and_eq_true, Bool.not_eq_true', decide_eq_true_eq] at found
      obtain ⟨⟨⟨managed, touchable⟩, own⟩, changed⟩ := found
      have held : holds pte.pa (pageOf pte.pa) = true := by simp [holds, managed]
      exact changed (isolated rfl stored (by decide) here present
        ⟨pageOf pte.pa, held, ⟨pageOf_lt managed, touchable⟩, by simp [own]⟩).2
  · cases found

/-- A space with one page, and its clone. -/
def firstClone : List Op := firstSpace ++ [.clone 0 0]

/-- A space and its clone are reached by a run under the discipline, and are isolated. -/
theorem run_isolated_firstClone :
    ∃ s, Run exec (Discreet kernelReserved) emptyBoot s ∧
      (s.state.spaces 1).any (fun space => (validPte space mmuUserBase).isSome) = true ∧ s.Isolated kernelReserved := by
  have found : (runList exec (fun s op => s.starting op = true) emptyBoot firstClone).any
      (fun s => (s.state.spaces 1).any fun space => (validPte space mmuUserBase).isSome) = true := by
    decide +kernel
  obtain ⟨s, run, mapped⟩ := runList_any found
  have discreet : Run exec (Discreet kernelReserved) emptyBoot s := run.mono fun s op starting => by
    refine ⟨Session.starting_allowed starting, ?_⟩
    cases op with
    | trampoline i => exact fun _ _ _ some => absurd (by simpa [Session.starting] using starting) some
    | mapPhys => cases starting
    | mapPhysAnywhere => cases starting
    | aliasRegion => cases starting
    | _ => trivial
  exact ⟨s, discreet, mapped, run_isolated largestBlocks_tiles discreet⟩

end Enlil.Mmu
