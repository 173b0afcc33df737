import Enlil.Pmm.BuddyCalls

/-! Runs of the buddy allocator under clients that free only what they were given. -/

namespace Enlil.Pmm

open AlignedBlock

/-- The allocator together with who holds which page. -/
structure Session where
  buddy : Buddy
  own : Nat → Holder

/-- The calls a client makes. -/
inductive BuddyOp where
  | allocPage
  | allocPages (order : Nat)
  | retainPage (pa : Nat)
  | freePage (pa : Nat)
  | freePages (pa order : Nat)
  deriving DecidableEq, Repr

/-- The holders after a block was handed out. -/
def grant (own : Nat → Holder) (idx order : Nat) : Nat → Holder :=
  fun p => if Covers idx order p then .client 1 else own p

/-- The holders after a retain of an address. -/
def retain (own : Nat → Holder) (pa : Nat) : Nat → Holder :=
  if unmanaged pa then own else Function.update own (pageOf pa) (own (pageOf pa)).retained

/-- The holders after a free of an address. -/
def release (own : Nat → Holder) (pa : Nat) : Nat → Holder :=
  if unmanaged pa then own else Function.update own (pageOf pa) (own (pageOf pa)).released

/-- The holders after `count` pages from an address on were freed. -/
def releaseRun (own : Nat → Holder) (pa : Nat) : Nat → Nat → Holder
  | 0 => own
  | count + 1 => release (releaseRun own pa count) (pa + count * pageSize)

/-- One call, with the holders following what the call promises its clients. -/
def Session.exec (t : Session) : BuddyOp → Except Halt Session
  | .allocPage => do
    let (pa, b) ← physAllocPage t.buddy
    return ⟨b, grant t.own (paToIdx pa) 0⟩
  | .allocPages order => do
    let (pa, b) ← physAllocPages t.buddy order
    return ⟨b, grant t.own (paToIdx pa) order⟩
  | .retainPage pa => .ok ⟨physRetainPage t.buddy pa, retain t.own pa⟩
  | .freePage pa => do
    let b ← physFreePage t.buddy pa
    return ⟨b, release t.own pa⟩
  | .freePages pa order => do
    let b ← physFreePages t.buddy pa order
    return ⟨b, releaseRun t.own pa (1 <<< order)⟩

/-- A client holds a reference to the page of an address. -/
def Holds (own : Nat → Holder) (pa : Nat) : Prop :=
  unmanaged pa = false ∧ ∃ n, own (pageOf pa) = .client n

/-- Clients free only pages they hold a reference to. -/
def Given (t : Session) : BuddyOp → Prop
  | .freePage pa => Holds t.own pa
  | .freePages pa order => ∀ i < 1 <<< order, Holds t.own (pa + i * pageSize)
  | _ => True

/-- No reference is added to a held page whose sixteen-bit counter is already at its maximum. -/
def Fits (t : Session) : BuddyOp → Prop
  | .retainPage pa => Holds t.own pa → t.buddy.pageRefs (pageOf pa) ≠ 0xFFFF
  | _ => True

/-- The data after the kernel pages were reserved and some blocks were put on the lists. -/
def bootBuddy (reserved : Nat → Bool) (blocks : List (Nat × Nat)) : Buddy :=
  blocks.foldl (fun s block => buddyAddBlock s block.1 block.2)
    { Buddy.empty with pageState := fun p => if reserved p then .reserved else .free }

/-- Before any call, a managed page is reserved or belongs to the pool. -/
def bootOwn (reserved : Nat → Bool) : Nat → Holder :=
  fun p => if p < numPages ∧ reserved p = false then .pool else .reserved

/-- The starting session over given reserved pages and free blocks. -/
def boot (reserved : Nat → Bool) (blocks : List (Nat × Nat)) : Session :=
  ⟨bootBuddy reserved blocks, bootOwn reserved⟩

/-- Size-aligned blocks that partition the managed pages that are not reserved. -/
structure Tiles (reserved : Nat → Bool) (blocks : List (Nat × Nat)) : Prop where
  orders : ∀ block ∈ blocks, block.2 < maxOrder
  aligned : ∀ block ∈ blocks, Aligned block.1 block.2
  apart : blocks.Pairwise fun first second =>
    ∀ p, Covers first.1 first.2 p → ¬ Covers second.1 second.2 p
  exact : ∀ p, (p < numPages ∧ reserved p = false) ↔ ∃ block ∈ blocks, Covers block.1 block.2 p

/--
The free lists describe free memory.

Blocks are aligned and managed, they meet neither each other nor a held or reserved page, the counters count them, and no call hands out a page that someone still holds.
-/
structure Session.Intact (t : Session) : Prop where
  aligned : ∀ {order idx}, t.buddy.FreeBlock order idx →
    order < maxOrder ∧ Aligned idx order ∧ idx + 2 ^ order ≤ numPages
  nodup : ∀ order, (t.buddy.buddySent order).Nodup
  disjoint : ∀ {order idx order' idx' p}, t.buddy.FreeBlock order idx →
    t.buddy.FreeBlock order' idx' → Covers idx order p → Covers idx' order' p →
    order = order' ∧ idx = idx'
  unheld : ∀ {order idx p}, t.buddy.FreeBlock order idx → Covers idx order p → t.own p = .pool
  count : ∀ order, (t.buddy.buddyCount order).toNat = (t.buddy.buddySent order).length
  total : t.buddy.totalFreePages.toNat = listedPages t.buddy.buddySent
  exclusivePage : ∀ {pa b}, physAllocPage t.buddy = .ok (pa, b) → t.own (paToIdx pa) = .pool
  exclusiveBlock : ∀ {order pa b p}, physAllocPages t.buddy order = .ok (pa, b) →
    Covers (paToIdx pa) order p → t.own p = .pool
  freeReturns : ∀ {pa}, Holds t.own pa → ∃ b, physFreePage t.buddy pa = .ok b

/-- The invariant of a session: sound data with no page between two lists. -/
def Session.Sound (t : Session) : Prop := Pmm.Sound t.own (fun _ => False) t.buddy

theorem Session.Sound.intact {t : Session} (sound : t.Sound) : t.Intact where
  aligned free := ⟨sound.orders free, sound.aligned free, sound.inside free⟩
  nodup := sound.nodup
  disjoint := sound.disjoint
  unheld free covers := (sound.pool_of_free free covers).1
  count := sound.buddyCount_eq
  total := sound.totalFreePages_eq
  exclusivePage returned := by
    obtain ⟨idx, rfl, granted⟩ := Pmm.Sound.physAllocPage sound returned
    simpa using granted.unheld idx (covers_base idx 0)
  exclusiveBlock returned covers := by
    obtain ⟨_, idx, rfl, granted⟩ := Pmm.Sound.physAllocPages sound returned
    exact granted.unheld _ (by simpa using covers)
  freeReturns holds := by
    obtain ⟨managed, n, client⟩ := holds
    obtain ⟨b, returned, _⟩ := Pmm.Sound.physFreePage sound managed client
    exact ⟨b, returned⟩

section

variable {own : Nat → Holder} {s : Buddy}

theorem Sound.free (sound : Sound own (fun _ => False) s) {pa : Nat} (holds : Holds own pa) :
    ∃ s', Pmm.physFreePage s pa = .ok s' ∧ Sound (release own pa) (fun _ => False) s' := by
  obtain ⟨managed, n, client⟩ := holds
  obtain ⟨s', returned, sound'⟩ := sound.physFreePage managed client
  exact ⟨s', returned, by simpa [release, managed, client] using sound'⟩

theorem releaseRun_after {pa : Nat} {count i : Nat} (start : unmanaged pa = false) (after : count ≤ i) :
    releaseRun own pa count (pageOf (pa + i * pageSize)) = own (pageOf (pa + i * pageSize)) := by
  -- The pages of the run are numbered below the page in question.
  induction count with
  | zero => rfl
  | succ count ih =>
    rw [releaseRun, release]
    split
    · exact ih (by omega)
    · rw [Function.update_of_ne, ih (by omega)]
      rw [pageOf_add start, pageOf_add start]
      omega

theorem Sound.freeRun (sound : Sound own (fun _ => False) s) {pa : Nat} (count : Nat)
    (holds : ∀ i < count, Holds own (pa + i * pageSize)) :
    ∃ s', freeRun s pa count = .ok s' ∧ Sound (releaseRun own pa count) (fun _ => False) s' := by
  induction count with
  | zero => exact ⟨s, rfl, sound⟩
  | succ count ih =>
    obtain ⟨s₁, freed, sound₁⟩ := ih fun i below => holds i (by omega)
    -- The first page of the run is managed, so the pages are numbered from it.
    have start : unmanaged pa = false := by simpa using (holds 0 (by omega)).1
    obtain ⟨managed, n, client⟩ := holds count (by omega)
    have still : Holds (releaseRun own pa count) (pa + count * pageSize) :=
      ⟨managed, n, by rw [releaseRun_after start (Nat.le_refl count), client]⟩
    obtain ⟨s', last, sound'⟩ := sound₁.free still
    exact ⟨s', by simp [Pmm.freeRun, freed, last, Bind.bind, Except.bind], sound'⟩

theorem Sound.retain (sound : Sound own (fun _ => False) s) {pa : Nat}
    (fits : Holds own pa → s.pageRefs (pageOf pa) ≠ 0xFFFF) :
    Sound (retain own pa) (fun _ => False) (physRetainPage s pa) := by
  unfold Pmm.retain physRetainPage
  split
  · exact sound
  rename_i managed
  have managed : unmanaged pa = false := by simpa using managed
  by_cases client : ∃ n, own (pageOf pa) = .client n
  · -- A held page is allocated with a positive counter, which moves with the holders.
    obtain ⟨n, client⟩ := client
    obtain ⟨positive, tag, refs⟩ := sound.clientTag client
    have touchable : (s.pageState (pageOf pa)).untouchable = false := by
      rcases tag with tag | tag <;> simp [tag, PageState.untouchable]
    have occupied : s.pageRefs (pageOf pa) ≠ 0 := fun zero => by simp [zero] at refs; omega
    have room : (s.pageRefs (pageOf pa) + 1).toNat = n + 1 := by
      have notLast : (s.pageRefs (pageOf pa)).toNat ≠ 65535 := fun last =>
        fits ⟨managed, n, client⟩ (UInt16.toNat_inj.mp last)
      have small := (s.pageRefs (pageOf pa)).toNat_lt
      rw [UInt16.toNat_add, Nat.mod_eq_of_lt (by simp; omega), refs]
      rfl
    simpa [touchable, occupied, client, Holder.retained] using
      sound.recount client (Nat.succ_pos n) room
  · -- Nobody holds the page, so its counter means nothing.
    have unchanged : (own (pageOf pa)).retained = own (pageOf pa) := by
      cases holder : own (pageOf pa) with
      | reserved => rfl
      | client n => exact absurd ⟨n, holder⟩ client
      | pool => rfl
    rw [unchanged, Function.update_eq_self]
    dsimp only
    have apart : ∀ p n, own p = .client n → p ≠ pageOf pa := by
      rintro p n held rfl
      exact client ⟨n, held⟩
    split
    · exact sound
    · split <;>
      · refine sound.retag (fun _ _ => rfl) (fun _ _ => rfl) fun p n held => ?_
        rw [Function.update_of_ne (apart p n held)]

end

theorem Session.Sound.exec {t t' : Session} (op : BuddyOp) (sound : t.Sound)
    (allowed : Given t op ∧ Fits t op) (returned : t.exec op = .ok t') : t'.Sound := by
  obtain ⟨given, fits⟩ := allowed
  cases op with
  | allocPage =>
    obtain ⟨⟨pa, b⟩, allocated, rest⟩ := bind_ok returned
    obtain ⟨idx, rfl, granted⟩ := Pmm.Sound.physAllocPage sound allocated
    cases rest
    simp only [Session.Sound, paToIdx_idxToPa]
    exact granted.sound
  | allocPages order =>
    obtain ⟨⟨pa, b⟩, allocated, rest⟩ := bind_ok returned
    obtain ⟨_, idx, rfl, granted⟩ := Pmm.Sound.physAllocPages sound allocated
    cases rest
    simp only [Session.Sound, paToIdx_idxToPa]
    exact granted.sound
  | retainPage pa =>
    cases returned
    exact Pmm.Sound.retain sound fits
  | freePage pa =>
    obtain ⟨b, freed, rest⟩ := bind_ok returned
    obtain ⟨b', freed', sound'⟩ := Pmm.Sound.free sound given
    cases rest
    cases freed.symm.trans freed'
    exact sound'
  | freePages pa order =>
    obtain ⟨b, freed, rest⟩ := bind_ok returned
    obtain ⟨b', freed', sound'⟩ := Pmm.Sound.freeRun sound (1 <<< order) given
    cases rest
    cases freed.symm.trans freed'
    exact sound'

theorem Sound.build {own : Nat → Holder} (blocks : List (Nat × Nat)) :
    ∀ {s : Buddy}, Sound own (fun p => ∃ block ∈ blocks, Covers block.1 block.2 p) s →
      (∀ block ∈ blocks, block.2 < maxOrder ∧ Aligned block.1 block.2) →
      (blocks.Pairwise fun first second => ∀ p, Covers first.1 first.2 p → ¬ Covers second.1 second.2 p) →
      Sound own (fun _ => False) (blocks.foldl (fun s block => buddyAddBlock s block.1 block.2) s) := by
  induction blocks with
  | nil => intro s sound _ _; exact sound.congr fun p => by simp
  | cons block rest ih =>
    intro s sound shape apart
    obtain ⟨bound, aligned⟩ := shape block (by simp)
    have given := sound.give bound aligned fun p covers => ⟨block, by simp, covers⟩
    refine ih (given.congr fun p => ?_) (fun other member => shape other (by simp [member]))
      (List.pairwise_cons.mp apart).2
    constructor
    · rintro ⟨⟨other, member, covers⟩, outside⟩
      rcases List.mem_cons.mp member with rfl | member
      · exact (outside covers).elim
      · exact ⟨other, member, covers⟩
    · rintro ⟨other, member, covers⟩
      exact ⟨⟨other, by simp [member], covers⟩,
        fun inside => (List.pairwise_cons.mp apart).1 other member p inside covers⟩

theorem boot_sound {reserved : Nat → Bool} {blocks : List (Nat × Nat)} (tiles : Tiles reserved blocks) :
    (boot reserved blocks).Sound := by
  refine Sound.build blocks ?_ (fun block member => ⟨tiles.orders block member, tiles.aligned block member⟩)
    tiles.apart
  -- Before the first block every page outside the kernel is in hand and every list is empty.
  refine
    { orders := by simp [Buddy.FreeBlock, Buddy.empty]
      aligned := by simp [Buddy.FreeBlock, Buddy.empty]
      nodup := by simp [Buddy.empty]
      disjoint := by simp [Buddy.FreeBlock, Buddy.empty]
      listed := ?_
      handPool := ?_
      managed := ?_
      freeTag := by simp [Buddy.FreeBlock, Buddy.empty]
      reservedTag := ?_
      clientTag := ?_
      count := by simp [Buddy.empty]
      total := by simp [Buddy.empty, listedPages] }
  · intro p
    rw [← tiles.exact p]
    simp [Buddy.FreeBlock, Buddy.empty, boot, bootOwn]
  · intro p hand
    simp [boot, bootOwn, (tiles.exact p).mpr hand]
  · intro p held
    by_contra outside
    simp [boot, bootOwn, outside] at held
  · intro p bound held
    have reserved : reserved p = true := by
      by_contra other
      simp [boot, bootOwn, bound, other] at held
    simp [reserved]
  · intro p n client
    simp only [boot, bootOwn] at client
    split at client <;> cases client

/-- In every run in which no held page's counter wraps, the free lists describe free memory. -/
theorem buddy_runs_intact {reserved : Nat → Bool} {blocks : List (Nat × Nat)}
    (tiles : Tiles reserved blocks) {t : Session}
    (run : Run Session.exec (fun t op => Given t op ∧ Fits t op) (boot reserved blocks) t) :
    t.Intact := by
  have sound : t.Sound := run.invariant (boot_sound tiles) fun sound allowed returned =>
    sound.exec _ allowed returned
  exact sound.intact

/-- The pages below the first four megabytes, as a kernel image would reserve them. -/
def kernelReserved (p : Nat) : Bool := p < 1024

/-- The rest of managed memory in blocks of the largest order. -/
def largestBlocks : List (Nat × Nat) := (List.range 127).map fun k => (1024 * (k + 1), 10)

theorem largestBlocks_tiles : Tiles kernelReserved largestBlocks := by
  refine ⟨?_, ?_, ?_, ?_⟩
  · intro block member
    obtain ⟨k, _, rfl⟩ := List.mem_map.mp member
    exact (by decide : 10 < maxOrder)
  · intro block member
    obtain ⟨k, _, rfl⟩ := List.mem_map.mp member
    exact Nat.dvd_mul_right 1024 (k + 1)
  · -- Consecutive blocks start one block size apart.
    refine List.pairwise_map.mpr (List.pairwise_lt_range.imp ?_)
    intro first second before p inFirst inSecond
    simp only [Covers] at inFirst inSecond
    omega
  · intro p
    simp only [kernelReserved, largestBlocks, numPages, pmmBase, pmmEnd, pageSize, List.mem_map,
      List.mem_range, Covers, decide_eq_false_iff_not]
    constructor
    · rintro ⟨inside, outside⟩
      exact ⟨_, ⟨p / 1024 - 1, by omega, rfl⟩, by simp only; omega⟩
    · rintro ⟨block, ⟨k, bound, rfl⟩, covers⟩
      simp only at covers
      omega

/-- Whether a call comes back. -/
def Session.returns (t : Session) (op : BuddyOp) : Bool :=
  match t.exec op with
  | .ok _ => true
  | .error _ => false

/-- The session a returning call leaves. -/
def Session.after (t : Session) (op : BuddyOp) : Session :=
  match t.exec op with
  | .ok t' => t'
  | .error _ => t

theorem Session.exec_after {t : Session} {op : BuddyOp} (returned : t.returns op = true) :
    t.exec op = .ok (t.after op) := by
  unfold Session.returns Session.after at *
  cases outcome : t.exec op with
  | error halt => simp [outcome] at returned
  | ok t' => rfl

/-- The sample session above with one page allocated. -/
def onePage : Session := (boot kernelReserved largestBlocks).after .allocPage

theorem onePage_returns : (boot kernelReserved largestBlocks).exec .allocPage = .ok onePage :=
  Session.exec_after (by decide)

/-- One allocated page is a run within the discipline, and it is intact. -/
theorem buddy_runs_intact_onePage :
    Run Session.exec (fun t op => Given t op ∧ Fits t op) (boot kernelReserved largestBlocks) onePage ∧
      onePage.Intact := by
  have run : Run Session.exec (fun t op => Given t op ∧ Fits t op)
      (boot kernelReserved largestBlocks) onePage :=
    .call .allocPage .start ⟨trivial, trivial⟩ onePage_returns
  exact ⟨run, buddy_runs_intact largestBlocks_tiles run⟩

/-- A session with the references of one page set to a given number. -/
def Session.withRefs (t : Session) (page n : Nat) : Session :=
  ⟨{ t.buddy with pageRefs := Function.update t.buddy.pageRefs page (UInt16.ofNat n) },
    Function.update t.own page (.client n)⟩

theorem physRetainPage_eq {s : Buddy} {pa page : Nat} (managed : unmanaged pa = false)
    (named : pageOf pa = page) (touchable : (s.pageState page).untouchable = false)
    (occupied : s.pageRefs page ≠ 0) :
    physRetainPage s pa =
      { s with pageRefs := Function.update s.pageRefs page (s.pageRefs page + 1) } := by
  subst named
  rw [physRetainPage, if_neg (by simp [managed])]
  dsimp only
  rw [if_neg (by simp [touchable]), if_neg occupied]

theorem retain_eq {own : Nat → Holder} {pa page : Nat} (managed : unmanaged pa = false)
    (named : pageOf pa = page) : retain own pa = Function.update own page (own page).retained := by
  subst named
  rw [retain, if_neg (by simp [managed])]

theorem release_eq {own : Nat → Holder} {pa page : Nat} (managed : unmanaged pa = false)
    (named : pageOf pa = page) : release own pa = Function.update own page (own page).released := by
  subst named
  rw [release, if_neg (by simp [managed])]

theorem run_retains {start t : Session} {pa page : Nat} (run : Run Session.exec Given start t)
    (managed : unmanaged pa = false) (named : pageOf pa = page)
    (touchable : (t.buddy.pageState page).untouchable = false)
    (refs : t.buddy.pageRefs page = 1) (client : t.own page = .client 1) (n : Nat)
    (bound : n < 65536) : Run Session.exec Given start (t.withRefs page (n + 1)) := by
  induction n with
  | zero =>
    have same : t.withRefs page 1 = t := by
      unfold Session.withRefs
      rw [← client, Function.update_eq_self, show UInt16.ofNat 1 = t.buddy.pageRefs page from refs.symm,
        Function.update_eq_self]
    rwa [same]
  | succ n ih =>
    -- The counter is not yet zero, so the retain takes the incrementing branch.
    have occupied : UInt16.ofNat (n + 1) ≠ 0 := by
      intro zero
      have := congrArg UInt16.toNat zero
      simp at this
      omega
    refine .call (.retainPage pa) (ih (by omega)) trivial ?_
    have next : UInt16.ofNat (n + 1) + 1 = UInt16.ofNat (n + 1 + 1) := (UInt16.ofNat_add (n + 1) 1).symm
    have counted : (t.withRefs page (n + 1)).buddy.pageRefs page ≠ 0 := by
      simpa only [Session.withRefs, Function.update_self] using occupied
    simp only [Session.exec]
    rw [physRetainPage_eq (s := (t.withRefs page (n + 1)).buddy) managed named touchable counted,
      retain_eq managed named]
    simp only [Session.withRefs, Function.update_self, Function.update_idem, Holder.retained, next]

theorem physFreePage_withRefs {t : Session} {pa page n : Nat} (managed : unmanaged pa = false)
    (named : pageOf pa = page) (touchable : (t.buddy.pageState page).untouchable = false)
    (refs : t.buddy.pageRefs page = 1) (wrapped : UInt16.ofNat n = 0) :
    physFreePage (t.withRefs page n).buddy pa = physFreePage t.buddy pa := by
  simp [physFreePage, managed, named, Session.withRefs, touchable, refs, wrapped]

/-- The counter of a page retained 65535 times reads zero, so one free puts the page on a list while 65535 references remain. -/
theorem buddy_refcount_wrap_breaks :
    ¬ ∀ (reserved : Nat → Bool) (blocks : List (Nat × Nat)), Tiles reserved blocks →
      ∀ t, Run Session.exec Given (boot reserved blocks) t → t.Intact := by
  intro intact
  have run : Run Session.exec Given (boot kernelReserved largestBlocks) onePage :=
    .call .allocPage .start trivial onePage_returns
  have sound : onePage.Sound := (boot_sound largestBlocks_tiles).exec .allocPage
    ⟨trivial, trivial⟩ onePage_returns
  -- The page handed out is the first one of the last block.
  obtain ⟨pa, managed, named⟩ : ∃ pa, unmanaged pa = false ∧ pageOf pa = 130048 :=
    ⟨idxToPa 130048, by decide, by decide⟩
  have touchable : (onePage.buddy.pageState 130048).untouchable = false := by decide
  have one : onePage.buddy.pageRefs 130048 = 1 := by decide
  have client : onePage.own 130048 = .client 1 := by decide
  have retained := run_retains run managed named touchable one client 65535 (by omega)
  -- Freeing it now does what freeing it with a single reference would do.
  obtain ⟨b, freed, sound'⟩ := Pmm.Sound.free sound ⟨managed, 1, by rw [named, client]⟩
  rw [← physFreePage_withRefs managed named touchable one (n := 65536) (by decide)] at freed
  have holds : Holds (onePage.withRefs 130048 65536).own pa :=
    ⟨managed, 65536, by simp [named, Session.withRefs]⟩
  have broken := intact _ _ largestBlocks_tiles ⟨b, release (onePage.withRefs 130048 65536).own pa⟩
    (.call (.freePage pa) retained holds (by simp only [Session.exec, freed]; rfl))
  -- The page is on a list, and its other references are still out.
  obtain ⟨order, idx, linked, covers⟩ := (sound'.listed 130048).mpr
    ⟨by simp [release_eq managed named, client, Holder.released], id⟩
  have pool := broken.unheld linked covers
  simp [release_eq managed named, Session.withRefs, Holder.released] at pool

end Enlil.Pmm
