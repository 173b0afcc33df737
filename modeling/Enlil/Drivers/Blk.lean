import Enlil.Lib.LinkedQueue
import Enlil.Lib.Run

/-! The requests of `drivers/blk.c` to a disk that completes each of them at some later time. -/

namespace Enlil.Blk

def blkPollTimeout : Nat := 5000000
def blkQueueDepth : Nat := 16

/-- The number that stands for no descriptor. -/
def noDesc : Nat := 0xFFFF

inductive Kind where
  | read
  | write
  | flush
  deriving DecidableEq, Repr

/-- What a call returns. -/
inductive Result where
  | ok
  | notReady
  | io
  | timeout
  | range
  | busy
  deriving DecidableEq, Repr

/-- A request that was published, by the descriptors it uses. -/
structure Request where
  id : Nat
  d0 : Nat
  d1 : Nat
  d2 : Nat
  deriving DecidableEq, Repr

/-- Where the driver is: in no call, before the next turn of the poll, or at the completions that have come. -/
inductive Phase where
  | idle
  | polling (request : Request) (timeout : Nat)
  | scanning (request : Request) (timeout : Nat)
  deriving DecidableEq, Repr

/-- The driver's data, the completions of the disk, and which requests the disk has not completed yet. -/
structure Driver where
  ready : Bool
  capacity : Nat
  queueSize : Nat
  next : Nat → Nat
  freeHead : Nat
  freeCount : Nat
  status : Nat → UInt8
  lastUsed : UInt16
  usedIdx : UInt16
  usedRing : Nat → Nat
  phase : Phase
  published : Nat
  pending : List Request
  /-- The results of the calls, with the request of each that had one. -/
  results : List (Option Nat × Result)

/-- The free list after `bvq_free_list_init`. -/
def initNext (queueSize i : Nat) : Nat :=
  if i + 1 < queueSize then i + 1 else if i + 1 = queueSize then noDesc else 0

/-- The driver after `blk_init`, for a disk that allows queues of so many descriptors. -/
def blkInit (queueMax capacity : Nat) : Driver where
  ready := queueMax ≠ 0
  capacity
  queueSize := min queueMax blkQueueDepth
  next := initNext (min queueMax blkQueueDepth)
  freeHead := 0
  freeCount := min queueMax blkQueueDepth
  status _ := 0
  lastUsed := 0
  usedIdx := 0
  usedRing _ := 0
  phase := .idle
  published := 0
  pending := []
  results := []

/-- The next three descriptors of the free list. -/
def bvqAlloc3 (s : Driver) : Option (Nat × Nat × Nat × Driver) :=
  if s.freeCount < 3 then none
  else
    let d0 := s.freeHead
    let d1 := s.next d0
    let d2 := s.next d1
    some (d0, d1, d2,
      { s with freeHead := s.next d2, freeCount := s.freeCount - 3, next := Function.update s.next d2 noDesc })

/-- Puts the descriptors of a chain back. -/
def bvqFree3 (s : Driver) (d0 : Nat) : Driver :=
  let d1 := s.next d0
  let d2 := s.next d1
  { s with next := Function.update s.next d2 s.freeHead, freeHead := d0, freeCount := s.freeCount + 3 }

/-- Publishes a request, and waits for it. -/
def bvqSubmit (s : Driver) : Option Driver :=
  match bvqAlloc3 s with
  | none => none
  | some (d0, d1, d2, s) =>
    let next := Function.update (Function.update (Function.update s.next d0 d1) d1 d2) d2 0
    let request := ⟨s.published, d0, d1, d2⟩
    some { s with
      next, status := Function.update s.status d0 0xFF, published := s.published + 1, pending := request :: s.pending
      phase := .polling request blkPollTimeout }

/-- Returns from a call. -/
def Driver.returns (s : Driver) (request : Option Nat) (result : Result) : Driver :=
  { s with phase := .idle, results := (request, result) :: s.results }

/-- Starts `blk_read_sync`, `blk_write_sync` or `blk_flush_sync`. -/
def blkSync (s : Driver) (kind : Kind) (sector count : Nat) (buf : Bool) : Driver :=
  if s.ready = false then s.returns none .notReady
  else if kind ≠ .flush ∧ (buf = false ∨ count = 0) then s.returns none .range
  else if kind ≠ .flush ∧ s.capacity < (sector + count) % 2 ^ 64 then s.returns none .range
  else
    match bvqSubmit s with
    | none => s.returns none .busy
    | some s => s

/-- A step of `bvq_poll_complete`. -/
def bvqPollComplete (s : Driver) : Driver :=
  match s.phase with
  | .idle => s
  | .polling request 0 => (bvqFree3 s request.d0).returns (some request.id) .timeout
  | .polling request (timeout + 1) => { s with phase := .scanning request timeout }
  | .scanning request timeout =>
    if s.lastUsed = s.usedIdx then { s with phase := .polling request timeout }
    else
      let id := s.usedRing (s.lastUsed.toNat % s.queueSize)
      let s := { s with lastUsed := s.lastUsed + 1 }
      if id = request.d0 then
        (bvqFree3 s request.d0).returns (some request.id) (if s.status request.d0 = 0 then .ok else .io)
      else s

/-- The disk completes one of the requests that it owes. -/
def complete (s : Driver) (k : Nat) (status : UInt8) : Driver :=
  match s.pending[k]? with
  | none => s
  | some request =>
    { s with
      status := Function.update s.status request.d0 status
      usedRing := Function.update s.usedRing (s.usedIdx.toNat % s.queueSize) request.d0
      usedIdx := s.usedIdx + 1, pending := s.pending.eraseIdx k }

inductive Op where
  | call (kind : Kind) (sector count : Nat) (buf : Bool)
  | poll
  | complete (k : Nat) (status : UInt8)
  deriving DecidableEq, Repr

def exec (s : Driver) : Op → Except Empty Driver
  | .call kind sector count buf => .ok (if s.phase = .idle then blkSync s kind sector count buf else s)
  | .poll => .ok (bvqPollComplete s)
  | .complete k status => .ok (Blk.complete s k status)

/-- The link of a descriptor in the free list. -/
def link (next : Nat → Nat) (d : Nat) : Option Nat := if next d = noDesc then none else some (next d)

/-- The free list of a driver that is ready has no descriptor twice, and the count is its length. -/
def Driver.Listed (s : Driver) : Prop :=
  s.ready = true → ∃ free, Path (link s.next) (if s.freeHead = noDesc then none else some s.freeHead) free ∧ free.Nodup ∧
    free.length = s.freeCount

def Request.chain (request : Request) : List Nat := [request.d0, request.d1, request.d2]

/-- No descriptor is used by two requests that the disk may still complete. -/
def Driver.Exclusive (s : Driver) : Prop := s.pending.Pairwise fun one other => one.chain.Disjoint other.chain

/-- A call succeeded only if the disk had completed its own request. -/
def Driver.Matched (s : Driver) : Prop := ∀ id, (some id, Result.ok) ∈ s.results → ∀ request ∈ s.pending, request.id ≠ id

/-- The discipline of a run: a call is made only when the disk owes nothing. -/
def Settled (s : Driver) : Op → Prop
  | .call .. => s.phase = .idle → s.pending = []
  | _ => True

section

variable {s s' : Driver} {queueMax capacity : Nat}

/-- All descriptors are in the free list again, in their order. -/
def Driver.freed (s : Driver) : Driver :=
  { s with next := initNext s.queueSize, freeHead := 0, freeCount := s.queueSize }

/-- The descriptors of every request. -/
def usual (id : Nat) : Request := ⟨id, 0, 1, 2⟩

/-- What holds between the steps of a run: the first three descriptors are those of the request that is waited for, or at the start of the free list, and every request that was published used them. -/
structure Driver.Laid (s : Driver) : Prop where
  depth : s.queueSize ≤ blkQueueDepth
  size : s.ready = true → s.queueSize ≠ 0
  idle : s.phase = .idle → s.freeHead = 0 ∧ s.freeCount = s.queueSize ∧ s.next = initNext s.queueSize
  busy : ∀ request timeout, s.phase = .polling request timeout ∨ s.phase = .scanning request timeout →
    3 ≤ s.queueSize ∧ request = usual request.id ∧ s.freeHead = initNext s.queueSize 2 ∧
      s.freeCount + 3 = s.queueSize ∧ s.next = Function.update (initNext s.queueSize) 2 0
  pending : ∀ request ∈ s.pending, request = usual request.id

theorem blkInit_laid : (blkInit queueMax capacity).Laid where
  depth := Nat.min_le_right _ _
  size ready := by
    have some : queueMax ≠ 0 := by simpa [blkInit] using ready
    show min queueMax blkQueueDepth ≠ 0
    unfold blkQueueDepth
    omega
  idle _ := ⟨rfl, rfl, rfl⟩
  busy _ _ either := either.elim nofun nofun
  pending _ := nofun

theorem initNext_first {queueSize i : Nat} (inside : i + 1 < queueSize) : initNext queueSize i = i + 1 := if_pos inside

theorem Driver.Laid.submit (laid : s.Laid) (idle : s.phase = .idle) (room : 3 ≤ s.queueSize) :
    bvqSubmit s = some { s with
      next := Function.update (initNext s.queueSize) 2 0, freeHead := initNext s.queueSize 2, freeCount := s.queueSize - 3
      status := Function.update s.status 0 0xFF, published := s.published + 1, pending := usual s.published :: s.pending
      phase := .polling (usual s.published) blkPollTimeout } := by
  obtain ⟨head, count, next⟩ := laid.idle idle
  have one : initNext s.queueSize 0 = 1 := initNext_first (by omega)
  have two : initNext s.queueSize 1 = 2 := initNext_first (by omega)
  have links : Function.update (Function.update (Function.update (Function.update (initNext s.queueSize) 2 noDesc) 0 1) 1 2) 2 0 =
      Function.update (initNext s.queueSize) 2 0 := by
    funext d
    by_cases third : d = 2
    · rw [third, Function.update_self, Function.update_self]
    by_cases second : d = 1
    · rw [second, Function.update_of_ne (by decide), Function.update_self, Function.update_of_ne (by decide), two]
    by_cases first : d = 0
    · rw [first, Function.update_of_ne (by decide), Function.update_of_ne (by decide), Function.update_self,
        Function.update_of_ne (by decide), one]
    rw [Function.update_of_ne third, Function.update_of_ne second, Function.update_of_ne first,
      Function.update_of_ne third, Function.update_of_ne third]
  unfold bvqSubmit bvqAlloc3
  rw [if_neg (by omega)]
  simp only [head, count, next, one, two, links]
  rfl

theorem Driver.Laid.call (laid : s.Laid) (idle : s.phase = .idle) (kind : Kind) (sector count : Nat) (buf : Bool) :
    (∃ result, result ≠ .ok ∧ blkSync s kind sector count buf = s.returns none result) ∨
      (3 ≤ s.queueSize ∧ some (blkSync s kind sector count buf) = bvqSubmit s) := by
  unfold blkSync
  split
  · exact .inl ⟨.notReady, nofun, rfl⟩
  split
  · exact .inl ⟨.range, nofun, rfl⟩
  split
  · exact .inl ⟨.range, nofun, rfl⟩
  by_cases room : 3 ≤ s.queueSize
  · rw [laid.submit idle room]
    exact .inr ⟨room, rfl⟩
  · have none : bvqSubmit s = none := by
      unfold bvqSubmit bvqAlloc3
      rw [if_pos (by rw [(laid.idle idle).2.1]; omega)]
    rw [none]
    exact .inl ⟨.busy, nofun, rfl⟩

theorem Driver.Laid.free (laid : s.Laid) {request : Request} {timeout : Nat}
    (busy : s.phase = .polling request timeout ∨ s.phase = .scanning request timeout) :
    bvqFree3 s request.d0 = s.freed := by
  obtain ⟨room, usual, head, count, next⟩ := laid.busy request timeout busy
  have first : request.d0 = 0 := by rw [usual]; rfl
  have one : s.next 0 = 1 := by
    rw [next, Function.update_of_ne (by decide)]
    exact initNext_first (by omega)
  have two : s.next 1 = 2 := by
    rw [next, Function.update_of_ne (by decide)]
    exact initNext_first (by omega)
  unfold bvqFree3
  simp only [first, one, two]
  rw [next, head, count, Function.update_idem, Function.update_eq_self]
  rfl

theorem Phase.cases (phase : Phase) : phase = .idle ∨ ∃ request timeout,
    phase = .polling request timeout ∨ phase = .scanning request timeout := by
  cases phase with
  | idle => exact .inl rfl
  | polling request timeout => exact .inr ⟨request, timeout, .inl rfl⟩
  | scanning request timeout => exact .inr ⟨request, timeout, .inr rfl⟩

theorem Driver.Laid.poll (laid : s.Laid) {request : Request} {timeout : Nat}
    (busy : s.phase = .polling request timeout ∨ s.phase = .scanning request timeout) :
    (∃ lastUsed phase, bvqPollComplete s = { s with lastUsed, phase } ∧
      ∃ timeout, phase = .polling request timeout ∨ phase = .scanning request timeout) ∨
    ∃ lastUsed result, (result = .ok → s.status request.d0 = 0) ∧
      bvqPollComplete s = ({ s with lastUsed } : Driver).freed.returns (some request.id) result := by
  unfold bvqPollComplete
  rcases busy with busy | busy
  · cases timeout with
    | zero =>
      simp only [busy]
      rw [laid.free (.inl busy)]
      exact .inr ⟨s.lastUsed, .timeout, nofun, rfl⟩
    | succ timeout =>
      simp only [busy]
      exact .inl ⟨s.lastUsed, _, rfl, timeout, .inr rfl⟩
  · simp only [busy]
    split
    · exact .inl ⟨s.lastUsed, _, rfl, timeout, .inl rfl⟩
    split
    · -- The descriptors are freed with the cursor moved on.
      have moved : ({ s with lastUsed := s.lastUsed + 1 } : Driver).Laid :=
        ⟨laid.depth, laid.size, laid.idle, laid.busy, laid.pending⟩
      have freed := @Driver.Laid.free _ moved request timeout (.inr busy)
      rw [busy] at freed
      rw [freed]
      refine .inr ⟨s.lastUsed + 1, _, fun ok => ?_, rfl⟩
      by_contra other
      rw [if_neg other] at ok
      cases ok
    · exact .inl ⟨s.lastUsed + 1, .scanning request timeout, rfl, timeout, .inr rfl⟩

theorem Driver.Laid.exec {op : Op} (laid : s.Laid) (ran : exec s op = .ok s') : s'.Laid := by
  cases op with
  | call kind sector count buf =>
    cases ran
    split
    · rename_i idle
      rcases laid.call idle kind sector count buf with ⟨result, _, returned⟩ | ⟨room, submitted⟩
      · rw [returned]
        exact ⟨laid.depth, laid.size, fun _ => laid.idle idle, fun _ _ either => either.elim nofun nofun, laid.pending⟩
      · rw [laid.submit idle room] at submitted
        rw [Option.some.inj submitted]
        refine ⟨laid.depth, laid.size, nofun, ?_, ?_⟩
        · intro request timeout either
          obtain same | same := either
          · cases same
            exact ⟨room, rfl, rfl, Nat.sub_add_cancel room, rfl⟩
          · cases same
        · intro request member
          rcases List.mem_cons.mp member with rfl | member
          · rfl
          · exact laid.pending request member
    · exact laid
  | poll =>
    cases ran
    rcases s.phase.cases with idle | ⟨request, timeout, busy⟩
    · unfold bvqPollComplete
      rw [idle]
      exact laid
    rcases laid.poll busy with ⟨lastUsed, phase, polled, timeout', either⟩ | ⟨lastUsed, result, _, returned⟩
    · rw [polled]
      refine ⟨laid.depth, laid.size, fun idle => ?_, fun request' timeout'' now => ?_, laid.pending⟩
      · obtain rfl | rfl := either <;> cases idle
      · obtain rfl | rfl := either
        · obtain same | same := now <;> cases same
          exact laid.busy _ timeout busy
        · obtain same | same := now <;> cases same
          exact laid.busy _ timeout busy
    · rw [returned]
      exact ⟨laid.depth, laid.size, fun _ => ⟨rfl, rfl, rfl⟩, fun _ _ either => either.elim nofun nofun, laid.pending⟩
  | complete k status =>
    cases ran
    unfold Blk.complete
    split
    · exact laid
    · exact ⟨laid.depth, laid.size, laid.idle, laid.busy, fun other member =>
        laid.pending other (List.mem_of_mem_eraseIdx member)⟩

theorem initNext_path {queueSize : Nat} (depth : queueSize ≤ blkQueueDepth) {next : Nat → Nat} (left : Nat) :
    ∀ d, d + left = queueSize → (∀ i, d ≤ i → next i = initNext queueSize i) →
      Path (link next) (if left = 0 then none else some d) (List.range' d left) := by
  induction left with
  | zero => exact fun _ _ _ => rfl
  | succ left ih =>
    intro d total same
    refine ⟨rfl, ?_⟩
    have rest := ih (d + 1) (by omega) fun i behind => same i (by omega)
    have here : link next d = if left = 0 then none else some (d + 1) := by
      unfold link
      rw [same d le_rfl]
      unfold blkQueueDepth at depth
      by_cases last : left = 0
      · have value : initNext queueSize d = noDesc := by
          unfold initNext
          rw [if_neg (by omega), if_pos (by omega)]
        rw [value, if_pos rfl, if_pos last]
      · have value : initNext queueSize d = d + 1 := initNext_first (by omega)
        rw [value, if_neg (by unfold noDesc; omega), if_neg last]
    rw [here]
    exact rest

theorem Driver.Laid.listed (laid : s.Laid) : s.Listed := by
  intro ready
  have depth := laid.depth
  have size := laid.size ready
  unfold blkQueueDepth at depth
  rcases s.phase.cases with idle | ⟨request, timeout, busy⟩
  · obtain ⟨head, count, next⟩ := laid.idle idle
    refine ⟨List.range' 0 s.queueSize, ?_, List.nodup_range', by rw [List.length_range', count]⟩
    have path := initNext_path laid.depth s.queueSize 0 (by omega) fun i _ => congrFun next i
    rw [if_neg size] at path
    rw [head, if_neg (by decide)]
    exact path
  · obtain ⟨room, _, head, count, next⟩ := laid.busy request timeout busy
    refine ⟨List.range' 3 s.freeCount, ?_, List.nodup_range', List.length_range'⟩
    have path := @initNext_path s.queueSize laid.depth s.next s.freeCount 3 (by omega) fun i behind => by
      rw [next, Function.update_of_ne (by omega)]
    have start : (if s.freeHead = noDesc then none else some s.freeHead) = if s.freeCount = 0 then none else some 3 := by
      rw [head]
      by_cases last : s.freeCount = 0
      · rw [show s.queueSize = 3 by omega, if_pos last]
        decide
      · rw [initNext_first (by omega), if_neg (by decide), if_neg last]
    rw [start]
    exact path

/-- What holds besides between the steps of a run in which calls are made only when the disk owes nothing. -/
structure Driver.Owed (s : Driver) : Prop where
  laid : s.Laid
  one : s.pending.length ≤ 1
  current : ∀ request timeout, s.phase = .polling request timeout ∨ s.phase = .scanning request timeout →
    request.id < s.published ∧ (s.pending = [] ∨ s.pending = [request] ∧ s.status 0 = 0xFF)
  past : ∀ id result, (some id, result) ∈ s.results → id < s.published
  ids : ∀ request ∈ s.pending, request.id < s.published
  matched : s.Matched

theorem blkInit_owed : (blkInit queueMax capacity).Owed where
  laid := blkInit_laid
  one := Nat.zero_le 1
  current _ _ either := either.elim nofun nofun
  past _ _ := nofun
  ids _ := nofun
  matched _ := nofun

theorem Driver.Owed.exec {op : Op} (owed : s.Owed) (settled : Settled s op) (ran : exec s op = .ok s') : s'.Owed := by
  have laid := owed.laid.exec ran
  cases op with
  | call kind sector count buf =>
    cases ran
    split at laid
    · rename_i idle
      have none : s.pending = [] := settled idle
      rw [if_pos idle]
      rcases owed.laid.call idle kind sector count buf with ⟨result, failed, returned⟩ | ⟨room, submitted⟩
      · rw [returned] at laid ⊢
        refine ⟨laid, owed.one, fun _ _ either => either.elim nofun nofun, fun id result' member => ?_, owed.ids, fun id member => ?_⟩
        · exact owed.past id result' ((List.mem_cons.mp member).resolve_left nofun)
        · exact owed.matched id ((List.mem_cons.mp member).resolve_left nofun)
      · rw [owed.laid.submit idle room] at submitted
        rw [Option.some.inj submitted] at laid ⊢
        refine ⟨laid, ?_, fun request timeout either => ?_, fun id result member => ?_, fun request member => ?_,
          fun id member request pending => ?_⟩
        · show (usual s.published :: s.pending).length ≤ 1
          rw [none]
          exact le_rfl
        · have same : request = usual s.published := by
            obtain same | same := either <;> cases same
            rfl
          refine ⟨by rw [same]; exact Nat.lt_succ_self _, .inr ⟨?_, ?_⟩⟩
          · rw [same, ← none]
          · show Function.update s.status 0 0xFF 0 = 0xFF
            exact Function.update_self _ _ _
        · exact Nat.lt_succ_of_lt (owed.past id result member)
        · rcases List.mem_cons.mp member with rfl | member
          · exact Nat.lt_succ_self s.published
          · exact Nat.lt_succ_of_lt (owed.ids request member)
        · have before := owed.past id .ok member
          rcases List.mem_cons.mp pending with rfl | pending
          · exact Nat.ne_of_gt before
          · exact owed.matched id member request pending
    · rename_i busy
      rw [if_neg busy]
      exact owed
  | poll =>
    cases ran
    rcases s.phase.cases with idle | ⟨request, timeout, busy⟩
    · unfold bvqPollComplete
      rw [idle]
      exact owed
    obtain ⟨waited, current⟩ := owed.current request timeout busy
    rcases owed.laid.poll busy with ⟨lastUsed, phase, polled, timeout', either⟩ | ⟨lastUsed, result, seen, returned⟩
    · rw [polled] at laid ⊢
      refine ⟨laid, owed.one, fun request' timeout'' now => ?_, owed.past, owed.ids, owed.matched⟩
      have same : request' = request := by
        obtain rfl | rfl := either <;> obtain same | same := now <;> cases same <;> rfl
      rw [same]
      exact ⟨waited, current⟩
    · rw [returned] at laid ⊢
      refine ⟨laid, owed.one, fun _ _ either => either.elim nofun nofun, fun id result' member => ?_, owed.ids,
        fun id member other pending => ?_⟩
      · rcases List.mem_cons.mp member with same | member
        · cases same
          exact waited
        · exact owed.past id result' member
      · rcases List.mem_cons.mp member with same | member
        · -- The status that was read is not the one that the request was published with.
          rw [Prod.mk.injEq] at same
          have read := seen same.2.symm
          rw [show request.d0 = 0 by rw [(owed.laid.busy request timeout busy).2.1]; rfl] at read
          rcases current with none | ⟨_, unread⟩
          · rw [show _ = s.pending from rfl, none] at pending
            cases pending
          · rw [read] at unread
            cases unread
        · exact owed.matched id member other pending
  | complete k status =>
    cases ran
    revert laid
    unfold Blk.complete
    split
    · exact fun _ => owed
    · rename_i request found
      intro laid
      have fewer {other : Request} (member : other ∈ s.pending.eraseIdx k) : other ∈ s.pending := List.mem_of_mem_eraseIdx member
      have none : s.pending.eraseIdx k = [] := by
        have inside := (List.getElem?_eq_some_iff.mp found).1
        refine List.eq_nil_of_length_eq_zero ?_
        rw [List.length_eraseIdx_of_lt inside]
        have := owed.one
        omega
      refine ⟨laid, ?_, fun request' timeout busy => ⟨(owed.current request' timeout busy).1, .inl none⟩, owed.past, fun other member => owed.ids other (fewer member),
        fun id member other pending => owed.matched id member other (fewer pending)⟩
      show (s.pending.eraseIdx k).length ≤ 1
      rw [none]
      exact Nat.zero_le 1

theorem run_laid {allowed : Driver → Op → Prop} (run : Run exec allowed (blkInit queueMax capacity) s) : s.Laid :=
  run.invariant blkInit_laid fun laid _ ran => laid.exec ran

theorem Driver.Laid.not_exclusive (laid : s.Laid) (idle : s.phase = .idle) (owes : s.pending ≠ []) {kind : Kind}
    {sector count : Nat} {buf : Bool} (accepted : (blkSync s kind sector count buf).phase ≠ .idle) :
    ¬ (blkSync s kind sector count buf).Exclusive := by
  rcases laid.call idle kind sector count buf with ⟨result, _, returned⟩ | ⟨room, submitted⟩
  · rw [returned] at accepted
    exact absurd rfl accepted
  · rw [laid.submit idle room] at submitted
    rw [Option.some.inj submitted]
    intro exclusive
    obtain ⟨older, member⟩ := List.exists_mem_of_ne_nil _ owes
    have apart := (List.pairwise_cons.mp exclusive).1 older member
    rw [laid.pending older member] at apart
    exact apart List.mem_cons_self List.mem_cons_self

/-- Over all runs the free list is kept in order; a call succeeds only for its own request, and no descriptor is used twice, in runs that make calls only when the disk owes nothing, and every other call that is accepted uses descriptors that the disk still owns. -/
theorem run_requests (queueMax capacity : Nat) :
    (∀ s, Run exec (fun _ _ => True) (blkInit queueMax capacity) s → s.Listed) ∧
    (∀ s, Run exec Settled (blkInit queueMax capacity) s → s.Matched ∧ s.Exclusive) ∧
    ∀ s kind sector count buf, Run exec (fun _ _ => True) (blkInit queueMax capacity) s →
      s.phase = .idle → s.pending ≠ [] → (blkSync s kind sector count buf).phase ≠ .idle →
      ¬ (blkSync s kind sector count buf).Exclusive := by
  refine ⟨fun s run => (run_laid run).listed, fun s run => ?_,
    fun s kind sector count buf run idle owes accepted => (run_laid run).not_exclusive idle owes accepted⟩
  have owed : s.Owed := run.invariant blkInit_owed fun owed settled ran => owed.exec settled ran
  refine ⟨owed.matched, ?_⟩
  have one := owed.one
  unfold Driver.Exclusive
  match pending : s.pending with
  | [] => exact .nil
  | [request] => exact List.pairwise_singleton _ _
  | _ :: _ :: _ =>
    rw [pending, List.length_cons, List.length_cons] at one
    omega

theorem run_timeout {allowed : Driver → Op → Prop} (any : ∀ s, allowed s .poll) {start : Driver} {request : Request}
    (timeout : Nat) : ∀ s, Run exec allowed start s → s.phase = .polling request timeout → s.lastUsed = s.usedIdx →
    ∃ s', Run exec allowed start s' ∧ s'.phase = .idle ∧ s'.pending = s.pending ∧ s'.ready = s.ready ∧
      s'.capacity = s.capacity ∧ s'.queueSize = s.queueSize := by
  induction timeout with
  | zero =>
    intro s run phase _
    have polled : bvqPollComplete s = (bvqFree3 s request.d0).returns (some request.id) .timeout := by
      unfold bvqPollComplete
      rw [phase]
    refine ⟨_, .call .poll run (any s) rfl, ?_⟩
    rw [polled]
    exact ⟨rfl, rfl, rfl, rfl, rfl⟩
  | succ timeout ih =>
    intro s run phase nothing
    have first : bvqPollComplete s = { s with phase := .scanning request timeout } := by
      unfold bvqPollComplete
      rw [phase]
    have second : bvqPollComplete { s with phase := .scanning request timeout } =
        { s with phase := .polling request timeout } := by
      unfold bvqPollComplete
      exact if_pos nothing
    have run := Run.call .poll run (any s) rfl
    rw [first] at run
    have run := Run.call .poll run (any _) rfl
    rw [second] at run
    exact ih { s with phase := .polling request timeout } run rfl nothing

end

theorem accepts {s : Driver} (laid : s.Laid) (idle : s.phase = .idle) (ready : s.ready = true) (capacity : s.capacity = 100)
    (size : s.queueSize = 16) : some (blkSync s .read 0 1 true) = bvqSubmit s := by
  have submitted := laid.submit idle (by rw [size]; decide)
  unfold blkSync
  rw [if_neg (by rw [ready]; nofun), if_neg (by decide), if_neg (by rw [capacity]; decide), submitted]

/-- A request times out, and the next one is published with its descriptors. -/
theorem run_shares : ¬ ∀ s, Run exec (fun _ _ => True) (blkInit 16 100) s → s.Listed ∧ s.Matched ∧ s.Exclusive := by
  intro claim
  have first := accepts (@blkInit_laid 16 100) rfl rfl rfl rfl
  rw [blkInit_laid.submit rfl (by decide)] at first
  have run : Run exec (fun _ _ => True) (blkInit 16 100) (blkSync (blkInit 16 100) .read 0 1 true) :=
    .call (.call .read 0 1 true) .start trivial (congrArg Except.ok (if_pos rfl))
  rw [Option.some.inj first] at run
  -- The disk does not answer, until the driver gives up.
  obtain ⟨s, run, idle, owes, ready, capacity, size⟩ := run_timeout (fun _ => trivial) blkPollTimeout _ run rfl rfl
  have laid : s.Laid := run_laid run
  have second := accepts laid idle ready capacity size
  rw [laid.submit idle (by rw [size]; decide)] at second
  have again : Run exec (fun _ _ => True) (blkInit 16 100) (blkSync s .read 0 1 true) :=
    .call (.call .read 0 1 true) run trivial (congrArg Except.ok (if_pos idle))
  refine laid.not_exclusive idle (by rw [owes]; nofun) ?_ (claim _ again).2.2
  rw [Option.some.inj second]
  nofun

end Enlil.Blk
