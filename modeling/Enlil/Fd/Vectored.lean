import Mathlib

/-! Vectored transfers: `sys_rw_vector` of `kernel/syscall.c`, over any kind of descriptor. -/

namespace Enlil.Fd

/-- Buffers of one call. -/
def iovMax : Nat := 16

/-- Bytes that one transfer moves at most. -/
def rwChunk : Nat := 4096

/-- Bytes that one request to the file server moves at most. -/
def vfsdIoBytes : Nat := 192

structure Iovec where
  base : UInt64
  len : Nat

inductive RwErrno where
  | ebadf
  | efault
  | einval
  /-- One that the descriptor answers with. -/
  | answered (code : Nat)

/-- A descriptor: what `sys_write`, or `sys_read`, does with so many bytes at an address; it moves no more than it is asked to, starting with the first. -/
structure Io (σ : Type) where
  transfer : σ → UInt64 → Nat → σ × Except RwErrno Nat
  le : ∀ {s base chunk t n}, transfer s base chunk = (t, .ok n) → n ≤ chunk

/-- A transfer that was made: from which buffer, from which byte of it on, and how many. -/
structure Chunk where
  iov : Nat
  offset : Nat
  count : Nat
  deriving DecidableEq

/-- The descriptor, and the transfers made so far. -/
structure Progress (σ : Type) where
  state : σ
  log : List Chunk

/-- The bytes of a transfer, each as its buffer and its place there. -/
def Chunk.bytes (chunk : Chunk) : List (Nat × Nat) := (List.range chunk.count).map fun k => (chunk.iov, chunk.offset + k)

variable {σ : Type}

/-- The bytes that were transferred, in their order. -/
def Progress.bytes (p : Progress σ) : List (Nat × Nat) := p.log.flatMap Chunk.bytes

/-- How many bytes were transferred. -/
def Progress.total (p : Progress σ) : Nat := (p.log.map Chunk.count).sum

/-- The transfers of one buffer: what the call returns, none if it goes on with the next buffer. Every turn moves a byte, so there are as many turns as bytes. -/
def rwIovec (io : Io σ) (index : Nat) (iov : Iovec) : Nat → Nat → Progress σ → Progress σ × Option (Except RwErrno Nat)
  | 0, _, p => (p, none)
  | turns + 1, offset, p =>
    if iov.len ≤ offset then (p, none)
    else
      let chunk := min (iov.len - offset) rwChunk
      match io.transfer p.state (iov.base + UInt64.ofNat offset) chunk with
      | (state, .error error) => (⟨state, p.log⟩, some (if p.total ≠ 0 then .ok p.total else .error error))
      | (state, .ok 0) => (⟨state, p.log⟩, some (.ok p.total))
      | (state, .ok (n + 1)) =>
        let p : Progress σ := ⟨state, p.log ++ [⟨index, offset, n + 1⟩]⟩
        -- A short transfer only ends the loop over this buffer.
        if n + 1 < chunk then (p, none) else rwIovec io index iov turns (offset + (n + 1)) p

/-- The transfers of all buffers, the first one with a number. -/
def rwIovecs (io : Io σ) : Nat → List Iovec → Progress σ → Progress σ × Except RwErrno Nat
  | _, [], p => (p, .ok p.total)
  | index, iov :: iovs, p =>
    match rwIovec io index iov iov.len 0 p with
    | (p, some result) => (p, result)
    | (p, none) => rwIovecs io (index + 1) iovs p

/-- A vectored transfer: whether the descriptor is open, where and how many the buffers are, why they cannot be read, if so, and which they are. -/
def sysRwVector (io : Io σ) (isOpen : Bool) (iovUva : UInt64) (iovcnt : Int32) (fault : Option RwErrno) (iovs : List Iovec)
    (s : σ) : Progress σ × Except RwErrno Nat :=
  if !isOpen then (⟨s, []⟩, .error .ebadf)
  else if iovUva = 0 then (⟨s, []⟩, .error .efault)
  else if iovcnt < 0 ∨ iovMax < iovcnt.toInt then (⟨s, []⟩, .error .einval)
  else if iovcnt = 0 then (⟨s, []⟩, .ok 0)
  else
    match fault with
    | some error => (⟨s, []⟩, .error error)
    | none => rwIovecs io 0 iovs ⟨s, []⟩

/-- A file behind the server that is written to at its end: its length, and what a request leaves of a transfer. -/
def vfsdProxyWrite : Io Nat where
  transfer length base chunk :=
    if base = 0 then (length, .error .efault) else (length + min chunk vfsdIoBytes, .ok (min chunk vfsdIoBytes))
  le := by
    intro length base chunk t n moved
    split at moved
    · cases moved
    · cases moved
      exact min_le_left _ _

/-- All bytes of the buffers, one buffer after the other. -/
def positions : Nat → List Iovec → List (Nat × Nat)
  | _, [] => []
  | index, iov :: iovs => (List.range iov.len).map (index, ·) ++ positions (index + 1) iovs

/-- A call that returns a number has transferred so many bytes from the start of the buffers, and no others. -/
def Concatenates (iovs : List Iovec) (out : Progress σ × Except RwErrno Nat) : Prop :=
  ∀ n, out.2 = .ok n → out.1.bytes = (positions 0 iovs).take n

/-- The transfers of the buffers, from a place in the first one on, are full up to one that comes back short; it leaves this descriptor and these buffers. -/
inductive Cuts (io : Io σ) : σ → Nat → List Iovec → σ → List Iovec → Prop where
  | next {s t : σ} {offset : Nat} {iov : Iovec} {iovs rest : List Iovec} (done : iov.len ≤ offset)
      (later : Cuts io s 0 iovs t rest) : Cuts io s offset (iov :: iovs) t rest
  | full {s s' t : σ} {offset : Nat} {iov : Iovec} {iovs rest : List Iovec} (more : offset < iov.len)
      (moved : io.transfer s (iov.base + UInt64.ofNat offset) (min (iov.len - offset) rwChunk) =
        (s', .ok (min (iov.len - offset) rwChunk)))
      (later : Cuts io s' (offset + min (iov.len - offset) rwChunk) (iov :: iovs) t rest) :
      Cuts io s offset (iov :: iovs) t rest
  | short {s t : σ} {offset n : Nat} {iov : Iovec} {iovs : List Iovec} (more : offset < iov.len)
      (moved : io.transfer s (iov.base + UInt64.ofNat offset) (min (iov.len - offset) rwChunk) = (t, .ok n))
      (some : 0 < n) (less : n < min (iov.len - offset) rwChunk) : Cuts io s offset (iov :: iovs) t iovs

/-- The first transfer of these buffers, if one of them has bytes, would move nothing. -/
def Stuck (io : Io σ) (s : σ) (iovs : List Iovec) : Prop :=
  ∀ iov, iovs.find? (fun iov => 0 < iov.len) = some iov →
    ∀ t n, io.transfer s iov.base (min iov.len rwChunk) = (t, .ok n) → n = 0

/-- A call that goes on from some transfers keeps them, returns their number with that of the later ones, and does not fail after a transfer. -/
structure Continues (p q : Progress σ) (result : Except RwErrno Nat) : Prop where
  log : p.log <+: q.log
  counts : ∀ n, result = .ok n → n = q.total
  works : p.total ≠ 0 → ∃ n, result = .ok n

section

variable {io : Io σ} {index : Nat} {iov : Iovec} {iovs : List Iovec} {p q : Progress σ}

theorem length_bytes (p : Progress σ) : p.bytes.length = p.total := by
  simp [Progress.bytes, Progress.total, Chunk.bytes, List.length_flatMap]

theorem total_le (kept : p.log <+: q.log) : p.total ≤ q.total := by
  obtain ⟨more, same⟩ := kept
  rw [Progress.total, Progress.total, ← same, List.map_append, List.sum_append]
  exact Nat.le_add_right _ _

theorem bytes_le (kept : p.log <+: q.log) : p.bytes <+: q.bytes := by
  obtain ⟨more, same⟩ := kept
  rw [Progress.bytes, Progress.bytes, ← same, List.flatMap_append]
  exact List.prefix_append _ _

theorem Continues.after {result : Except RwErrno Nat} (kept : p.log <+: q.log) {r : Progress σ}
    (continues : Continues q r result) : Continues p r result where
  log := kept.trans continues.log
  counts := continues.counts
  works some := continues.works fun none => some (Nat.le_zero.mp (none ▸ total_le kept))

theorem rwIovec_continues (io : Io σ) (index : Nat) (iov : Iovec) (turns offset : Nat) (p : Progress σ) :
    p.log <+: (rwIovec io index iov turns offset p).1.log ∧
      ∀ result, (rwIovec io index iov turns offset p).2 = some result →
        Continues p (rwIovec io index iov turns offset p).1 result := by
  induction turns generalizing offset p with
  | zero => exact ⟨List.prefix_rfl, fun _ => nofun⟩
  | succ turns ih =>
    unfold rwIovec
    split
    · exact ⟨List.prefix_rfl, fun _ => nofun⟩
    dsimp only
    split
    · rename_i state error _
      refine ⟨List.prefix_rfl, fun result same => ?_⟩
      cases same
      refine ⟨List.prefix_rfl, fun n => ?_, fun some => ⟨p.total, if_pos some⟩⟩
      split
      · exact fun same => (Except.ok.inj same).symm
      · nofun
    · refine ⟨List.prefix_rfl, fun result same => ?_⟩
      cases same
      exact ⟨List.prefix_rfl, fun n same => (Except.ok.inj same).symm, fun _ => ⟨_, rfl⟩⟩
    · split
      · exact ⟨List.prefix_append _ _, fun _ => nofun⟩
      · -- The later turns go on from this transfer.
        rename_i state n _ _
        obtain ⟨kept, later⟩ := ih (offset + (n + 1)) ⟨state, p.log ++ [⟨index, offset, n + 1⟩]⟩
        have first : p.log <+: p.log ++ [⟨index, offset, n + 1⟩] := List.prefix_append _ _
        exact ⟨first.trans kept, fun result same => (later result same).after first⟩

theorem rwIovecs_continues (io : Io σ) (index : Nat) (iovs : List Iovec) (p : Progress σ) :
    Continues p (rwIovecs io index iovs p).1 (rwIovecs io index iovs p).2 := by
  induction iovs generalizing index p with
  | nil => exact ⟨List.prefix_rfl, fun n same => (Except.ok.inj same).symm, fun _ => ⟨_, rfl⟩⟩
  | cons iov iovs ih =>
    obtain ⟨kept, ended⟩ := rwIovec_continues io index iov iov.len 0 p
    unfold rwIovecs
    split
    · rename_i q result out
      rw [out] at ended
      exact ended result rfl
    · rename_i q out
      rw [out] at kept
      exact (ih (index + 1) q).after kept

theorem rwIovec_first (io : Io σ) (index : Nat) {iov : Iovec} (some : 0 < iov.len) (p : Progress σ) :
    rwIovec io index iov iov.len 0 p =
      match io.transfer p.state iov.base (min iov.len rwChunk) with
      | (state, .error error) => (⟨state, p.log⟩, .some (if p.total ≠ 0 then .ok p.total else .error error))
      | (state, .ok 0) => (⟨state, p.log⟩, .some (.ok p.total))
      | (state, .ok (n + 1)) =>
        let p : Progress σ := ⟨state, p.log ++ [⟨index, 0, n + 1⟩]⟩
        if n + 1 < min iov.len rwChunk then (p, none) else rwIovec io index iov (iov.len - 1) (0 + (n + 1)) p := by
  obtain ⟨turns, full⟩ := Nat.exists_eq_succ_of_ne_zero some.ne'
  have here : iov.base + UInt64.ofNat 0 = iov.base := UInt64.add_zero _
  conv => lhs; rw [full, rwIovec, if_neg (by omega), here]
  rw [Nat.sub_zero, full]
  rfl

theorem rwIovecs_first {t : σ} {n : Nat} (some : 0 < iov.len)
    (moved : io.transfer p.state iov.base (min iov.len rwChunk) = (t, .ok (n + 1))) :
    Continues ⟨t, p.log ++ [⟨index, 0, n + 1⟩]⟩ (rwIovecs io index (iov :: iovs) p).1 (rwIovecs io index (iov :: iovs) p).2 := by
  rw [rwIovecs, rwIovec_first io index some, moved]
  dsimp only
  split
  · rename_i q result out
    split at out
    · cases out
    · have ended := (rwIovec_continues io index iov (iov.len - 1) (0 + (n + 1)) ⟨t, p.log ++ [⟨index, 0, n + 1⟩]⟩).2
      rw [out] at ended
      exact ended result rfl
  · rename_i q out
    refine Continues.after ?_ (rwIovecs_continues io (index + 1) iovs q)
    split at out
    · cases out
      exact List.prefix_rfl
    · have kept := (rwIovec_continues io index iov (iov.len - 1) (0 + (n + 1)) ⟨t, p.log ++ [⟨index, 0, n + 1⟩]⟩).1
      rw [out] at kept
      exact kept

theorem rwIovecs_short_iff {whole : List (Nat × Nat)} {place : Nat × Nat} (some : 0 < p.total)
    (so : p.bytes = whole.take p.total) (missing : whole[p.total]? = .some place) (earlier : place.1 < index) :
    (∀ n, (rwIovecs io index iovs p).2 = .ok n → (rwIovecs io index iovs p).1.bytes = whole.take n) ↔
      Stuck io p.state iovs := by
  induction iovs generalizing index with
  | nil =>
    refine ⟨fun _ _ => nofun, fun _ n same => ?_⟩
    cases same
    exact so
  | cons iov iovs ih =>
    by_cases empty : iov.len = 0
    · -- A buffer without bytes is passed over.
      have passed : rwIovecs io index (iov :: iovs) p = rwIovecs io (index + 1) iovs p := by
        rw [rwIovecs, empty, rwIovec]
      have skipped : Stuck io p.state (iov :: iovs) ↔ Stuck io p.state iovs := by
        simp [Stuck, empty]
      rw [passed, skipped]
      exact ih (Nat.lt_succ_of_lt earlier)
    · have full : 0 < iov.len := Nat.pos_of_ne_zero empty
      have first : Stuck io p.state (iov :: iovs) ↔
          ∀ t n, io.transfer p.state iov.base (min iov.len rwChunk) = (t, .ok n) → n = 0 := by
        simp [Stuck, full]
      rw [first]
      match moved : io.transfer p.state iov.base (min iov.len rwChunk) with
      | (t, .error error) =>
        refine ⟨fun _ _ _ => nofun, fun _ n same => ?_⟩
        rw [rwIovecs, rwIovec_first io index full, moved] at same ⊢
        dsimp only at same ⊢
        rw [if_pos some.ne'] at same
        cases same
        exact so
      | (t, .ok 0) =>
        refine ⟨fun _ _ n same => ?_, fun _ n same => ?_⟩
        · cases same
          rfl
        · rw [rwIovecs, rwIovec_first io index full, moved] at same ⊢
          cases same
          exact so
      | (t, .ok (n + 1)) =>
        refine ⟨fun right => ?_, fun none => absurd (none t (n + 1) rfl) (Nat.succ_ne_zero n)⟩
        -- The byte after those that were transferred before is of this buffer, where one of an earlier buffer is missing.
        have continues : Continues ⟨t, p.log ++ [⟨index, 0, n + 1⟩]⟩ (rwIovecs io index (iov :: iovs) p).1 (rwIovecs io index (iov :: iovs) p).2 :=
          rwIovecs_first full moved
        have count : (⟨t, p.log ++ [⟨index, 0, n + 1⟩]⟩ : Progress σ).total = p.total + (n + 1) := by
          simp [Progress.total]
        obtain ⟨m, returned⟩ := continues.works (by omega)
        have most := total_le continues.log
        rw [count, ← continues.counts m returned] at most
        have here : (⟨t, p.log ++ [⟨index, 0, n + 1⟩]⟩ : Progress σ).bytes[p.total]? = .some (index, 0) := by
          have split : (⟨t, p.log ++ [⟨index, 0, n + 1⟩]⟩ : Progress σ).bytes =
              p.bytes ++ (List.range (n + 1)).map fun k => (index, 0 + k) := by
            simp [Progress.bytes, Chunk.bytes]
          rw [split, List.getElem?_append_right (length_bytes p).le, length_bytes p, Nat.sub_self]
          simp
        have kept : (rwIovecs io index (iov :: iovs) p).1.bytes[p.total]? = .some (index, 0) := by
          obtain ⟨more, same⟩ := bytes_le continues.log
          rw [← same, List.getElem?_append_left (List.getElem?_eq_some_iff.mp here).1]
          exact here
        rw [right m returned, List.getElem?_take_of_lt (by omega), missing] at kept
        cases kept
        exact absurd earlier (lt_irrefl _)

theorem whole_take (index : Nat) (before after : List (Nat × Nat)) {offset : Nat} (le : offset ≤ iov.len) :
    (before ++ ((List.range iov.len).map (index, ·) ++ after)).take (before.length + offset) =
      before ++ (List.range offset).map (index, ·) := by
  rw [List.take_length_add_append, List.take_append_of_le_length (by simpa using le), ← List.map_take, List.take_range,
    min_eq_left le]

theorem whole_next (index : Nat) (before after : List (Nat × Nat)) {offset : Nat} (less : offset < iov.len) :
    (before ++ ((List.range iov.len).map (index, ·) ++ after))[before.length + offset]? = some (index, offset) := by
  rw [List.getElem?_append_right (Nat.le_add_right _ _), Nat.add_sub_cancel_left,
    List.getElem?_append_left (by simpa using less)]
  simp [less]

/-- The transfers of one more buffer, and then of the rest. -/
def rwRest (io : Io σ) (index : Nat) (iovs : List Iovec) :
    Progress σ × Option (Except RwErrno Nat) → Progress σ × Except RwErrno Nat
  | (p, some result) => (p, result)
  | (p, none) => rwIovecs io (index + 1) iovs p

theorem rwIovecs_cons (io : Io σ) (index : Nat) (iov : Iovec) (iovs : List Iovec) (p : Progress σ) :
    rwIovecs io index (iov :: iovs) p = rwRest io index iovs (rwIovec io index iov iov.len 0 p) := by
  rw [rwIovecs, rwRest.eq_def]

theorem total_of_bytes {before : List (Nat × Nat)} {offset : Nat}
    (so : p.bytes = before ++ (List.range offset).map (index, ·)) : p.total = before.length + offset := by
  rw [← length_bytes, so]
  simp

theorem rwIovec_turn (io : Io σ) (index : Nat) {offset : Nat} (less : offset < iov.len) (turns : Nat) (p : Progress σ) :
    rwIovec io index iov (turns + 1) offset p =
      match io.transfer p.state (iov.base + UInt64.ofNat offset) (min (iov.len - offset) rwChunk) with
      | (state, .error error) => (⟨state, p.log⟩, some (if p.total ≠ 0 then .ok p.total else .error error))
      | (state, .ok 0) => (⟨state, p.log⟩, some (.ok p.total))
      | (state, .ok (n + 1)) =>
        if n + 1 < min (iov.len - offset) rwChunk then (⟨state, p.log ++ [⟨index, offset, n + 1⟩]⟩, none)
        else rwIovec io index iov turns (offset + (n + 1)) ⟨state, p.log ++ [⟨index, offset, n + 1⟩]⟩ := by
  rw [rwIovec, if_neg (not_le.mpr less)]

/-- What is to be shown of a call that goes on in some way with the rest of the buffers. -/
def Right (io : Io σ) (whole : List (Nat × Nat)) (s : σ) (offset : Nat) (iovs : List Iovec)
    (out : Progress σ × Except RwErrno Nat) : Prop :=
  (∀ n, out.2 = .ok n → out.1.bytes = whole.take n) ↔ ∀ t rest, Cuts io s offset iovs t rest → Stuck io t rest

theorem right_done {before : List (Nat × Nat)} {offset : Nat}
    (later : ∀ {p : Progress σ} {before : List (Nat × Nat)}, p.bytes = before →
      Right io (before ++ positions (index + 1) iovs) p.state 0 iovs (rwIovecs io (index + 1) iovs p))
    (le : offset ≤ iov.len) (done : iov.len ≤ offset) (so : p.bytes = before ++ (List.range offset).map (index, ·)) :
    Right io (before ++ ((List.range iov.len).map (index, ·) ++ positions (index + 1) iovs)) p.state offset (iov :: iovs)
      (rwRest io index iovs (p, none)) := by
  have whole : offset = iov.len := le_antisymm le done
  rw [whole] at so
  have rest := later so
  rw [List.append_assoc] at rest
  refine Iff.trans rest ⟨fun clear t rest cuts => ?_, fun clear t rest cuts => clear t rest (.next done cuts)⟩
  cases cuts with
  | next _ cuts => exact clear t rest cuts
  | full more _ _ => omega
  | short more _ _ _ => omega

theorem right_ended {before after : List (Nat × Nat)} {offset : Nat} {state : σ} {result : Except RwErrno Nat}
    (less : offset < iov.len) (so : p.bytes = before ++ (List.range offset).map (index, ·))
    (counts : ∀ n, result = .ok n → n = p.total)
    (none : ∀ t n, io.transfer p.state (iov.base + UInt64.ofNat offset) (min (iov.len - offset) rwChunk) = (t, .ok n) →
      n = 0) :
    Right io (before ++ ((List.range iov.len).map (index, ·) ++ after)) p.state offset (iov :: iovs)
      (⟨state, p.log⟩, result) := by
  have positive : 0 < min (iov.len - offset) rwChunk := lt_min (by omega) (by decide)
  constructor
  · intro _ t rest cuts
    cases cuts with
    | next done _ => omega
    | full _ moved _ =>
      have zero := none _ _ moved
      omega
    | short _ moved some _ => exact absurd (none _ _ moved) some.ne'
  · intro _ n same
    rw [counts n same, total_of_bytes so, whole_take _ _ _ less.le]
    exact so

theorem right_short {before : List (Nat × Nat)} {offset n : Nat} {state : σ} (less : offset < iov.len)
    (moved : io.transfer p.state (iov.base + UInt64.ofNat offset) (min (iov.len - offset) rwChunk) = (state, .ok (n + 1)))
    (short : n + 1 < min (iov.len - offset) rwChunk) {q : Progress σ} (there : q.state = state)
    (stored : q.bytes = before ++ (List.range (offset + (n + 1))).map (index, ·)) :
    Right io (before ++ ((List.range iov.len).map (index, ·) ++ positions (index + 1) iovs)) p.state offset (iov :: iovs)
      (rwIovecs io (index + 1) iovs q) := by
  have total := total_of_bytes stored
  have reaches := whole_take index before (positions (index + 1) iovs)
    (show offset + (n + 1) ≤ iov.len by omega)
  have missing := whole_next index before (positions (index + 1) iovs)
    (show offset + (n + 1) < iov.len by omega)
  rw [← total] at reaches missing
  refine Iff.trans (rwIovecs_short_iff (by omega) (stored.trans reaches.symm) missing (Nat.lt_succ_self index)) ?_
  rw [there]
  constructor
  · intro stuck t rest cuts
    cases cuts with
    | next done _ => omega
    | full _ moved' _ =>
      have same := Except.ok.inj (Prod.mk.inj (moved.symm.trans moved')).2
      omega
    | short _ moved' _ _ =>
      cases moved.symm.trans moved'
      exact stuck
  · exact fun clear => clear state iovs (.short less moved (Nat.succ_pos n) short)

theorem rwIovec_right {before : List (Nat × Nat)} {turns offset : Nat}
    (later : ∀ {p : Progress σ} {before : List (Nat × Nat)}, p.bytes = before →
      Right io (before ++ positions (index + 1) iovs) p.state 0 iovs (rwIovecs io (index + 1) iovs p))
    (le : offset ≤ iov.len) (enough : iov.len ≤ offset + turns)
    (so : p.bytes = before ++ (List.range offset).map (index, ·)) :
    Right io (before ++ ((List.range iov.len).map (index, ·) ++ positions (index + 1) iovs)) p.state offset (iov :: iovs)
      (rwRest io index iovs (rwIovec io index iov turns offset p)) := by
  induction turns generalizing offset p with
  | zero => exact right_done later le (by omega) so
  | succ turns ih =>
    by_cases done : iov.len ≤ offset
    · rw [rwIovec, if_pos done]
      exact right_done later le done so
    have less : offset < iov.len := not_le.mp done
    rw [rwIovec_turn io index less]
    match moved : io.transfer p.state (iov.base + UInt64.ofNat offset) (min (iov.len - offset) rwChunk) with
    | (state, .error error) =>
      refine right_ended less so (fun n same => ?_) fun t n same => ?_
      · split at same
        · exact (Except.ok.inj same).symm
        · cases same
      · cases moved.symm.trans same
    | (state, .ok 0) =>
      refine right_ended less so (fun n same => (Except.ok.inj same).symm) fun t n same => ?_
      cases moved.symm.trans same
      rfl
    | (state, .ok (n + 1)) =>
      dsimp only
      have most := io.le moved
      have stored : (⟨state, p.log ++ [⟨index, offset, n + 1⟩]⟩ : Progress σ).bytes =
          before ++ (List.range (offset + (n + 1))).map (index, ·) := by
        have split : (⟨state, p.log ++ [⟨index, offset, n + 1⟩]⟩ : Progress σ).bytes =
            p.bytes ++ (List.range (n + 1)).map fun k => (index, offset + k) := by
          simp [Progress.bytes, Chunk.bytes]
        rw [split, so, List.append_assoc, (List.range_add : List.range (offset + (n + 1)) = _), List.map_append, List.map_map]
        rfl
      by_cases short : n + 1 < min (iov.len - offset) rwChunk
      · rw [if_pos short]
        exact right_short less moved short rfl stored
      · have full : n + 1 = min (iov.len - offset) rwChunk := le_antisymm most (not_lt.mp short)
        rw [if_neg short]
        refine Iff.trans (ih (by omega) (by omega) stored) ?_
        constructor
        · intro clear t rest cuts
          cases cuts with
          | next done' _ => exact absurd done' done
          | full _ moved' cuts =>
            obtain ⟨there, _⟩ := Prod.mk.inj (moved.symm.trans moved')
            rw [← there, ← full] at cuts
            exact clear t rest cuts
          | short _ moved' _ less' =>
            cases moved.symm.trans moved'
            exact absurd less' short
        · intro clear t rest cuts
          refine clear t rest (.full less (moved.trans ?_) (full ▸ cuts))
          rw [← full]

theorem rwIovecs_right {before : List (Nat × Nat)} (so : p.bytes = before) :
    Right io (before ++ positions index iovs) p.state 0 iovs (rwIovecs io index iovs p) := by
  induction iovs generalizing index p before with
  | nil =>
    refine ⟨fun _ _ _ => nofun, fun _ n same => ?_⟩
    cases same
    rw [positions, List.append_nil, ← so, ← length_bytes, List.take_length]
    rfl
  | cons iov iovs ih =>
    rw [rwIovecs_cons]
    refine rwIovec_right (fun so => ih so) (Nat.zero_le _) (by omega) ?_
    rw [so, List.range_zero, List.map_nil, List.append_nil]

/--
A vectored transfer is one of the concatenation of its buffers if and only if nothing follows a short transfer.

The call may be refused; otherwise, if a transfer of some buffer is the first to come back short, the first transfer of the later buffers has to move nothing.
-/
theorem sysRwVector_concatenates_iff (io : Io σ) (isOpen : Bool) (iovUva : UInt64) (iovcnt : Int32) (fault : Option RwErrno)
    (iovs : List Iovec) (s : σ) :
    Concatenates iovs (sysRwVector io isOpen iovUva iovcnt fault iovs s) ↔
      (isOpen = true → iovUva ≠ 0 → 0 < iovcnt.toInt → iovcnt.toInt ≤ iovMax → fault.isNone = true →
        ∀ t rest, Cuts io s 0 iovs t rest → Stuck io t rest) := by
  have zero : (0 : Int32).toInt = 0 := rfl
  unfold sysRwVector
  split
  · rename_i closed
    refine ⟨fun _ opened => ?_, fun _ _ => nofun⟩
    rw [opened] at closed
    cases closed
  split
  · rename_i null
    exact ⟨fun _ _ some => absurd null some, fun _ _ => nofun⟩
  split
  · rename_i count
    refine ⟨fun _ _ _ least most => ?_, fun _ _ => nofun⟩
    rw [Int32.lt_iff_toInt_lt, zero] at count
    omega
  split
  · rename_i none
    refine ⟨fun _ _ _ least => ?_, fun _ n same => ?_⟩
    · rw [none, zero] at least
      omega
    · cases same
      rfl
  rename_i opened address count some
  cases fault with
  | some error => exact ⟨fun _ _ _ _ _ => nofun, fun _ _ => nofun⟩
  | none =>
    have right := @rwIovecs_right σ io 0 iovs ⟨s, []⟩ [] rfl
    refine Iff.trans right ⟨fun clear _ _ _ _ _ => clear, fun clear => clear ?_ address ?_ ?_ rfl⟩
    · simpa using opened
    · rw [Int32.lt_iff_toInt_lt, zero, not_or] at count
      have other : iovcnt.toInt ≠ 0 := fun same => some (Int32.toInt_inj.mp same)
      omega
    · omega

/-- A second buffer is written to the server after the first one was cut to what a request holds. -/
theorem writev_skips :
    (sysRwVector vfsdProxyWrite true 0x1000 2 none [⟨0x400000, 600⟩, ⟨0x500000, 10⟩] 0).2 = .ok 202 ∧
    (sysRwVector vfsdProxyWrite true 0x1000 2 none [⟨0x400000, 600⟩, ⟨0x500000, 10⟩] 0).1.log = [⟨0, 0, 192⟩, ⟨1, 0, 10⟩] ∧
    ¬ Concatenates [⟨0x400000, 600⟩, ⟨0x500000, 10⟩]
      (sysRwVector vfsdProxyWrite true 0x1000 2 none [⟨0x400000, 600⟩, ⟨0x500000, 10⟩] 0) := by
  refine ⟨rfl, rfl, fun concatenates => ?_⟩
  -- The byte after the first request should be the next one of the first buffer.
  have here := congrArg (fun bytes => bytes[192]?) (concatenates 202 rfl)
  exact absurd here (by decide +kernel)

end

end Enlil.Fd
