import Enlil.Sched.Process

/-! The ready bitmap and the run queues say the same about the ready tasks. -/

namespace Enlil.Sched

section

variable {bitmap : Nat → BitVec 64}

theorem bitmapBit_set (prio : UInt8) (q : Nat) :
    bitmapBit (bitmapSet bitmap prio) q = (decide (q = prio.toNat) || bitmapBit bitmap q) := by
  unfold bitmapBit bitmapSet
  -- The bit is in the changed word, or in one that stays as it was.
  by_cases word : q / 64 = prio.toNat / 64
  · have place : q % 64 < 64 := Nat.mod_lt _ (by decide)
    have same : q % 64 = prio.toNat % 64 ↔ q = prio.toNat := by omega
    rw [word, Function.update_self, BitVec.getLsbD_or, BitVec.getLsbD_shiftLeft, BitVec.getLsbD_one]
    by_cases here : q = prio.toNat
    · subst here
      simp [place]
    · have apart : q % 64 ≠ prio.toNat % 64 := fun equal => here (same.mp equal)
      by_cases below : q % 64 < prio.toNat % 64
      · simp [here, below]
      · have later : q % 64 - prio.toNat % 64 ≠ 0 := by omega
        simp [here, later]
  · have here : q ≠ prio.toNat := fun equal => word (by rw [equal])
    rw [Function.update_of_ne word]
    simp [here]

theorem bitmapBit_clear (prio : UInt8) (q : Nat) :
    bitmapBit (bitmapClear bitmap prio) q = (decide (q ≠ prio.toNat) && bitmapBit bitmap q) := by
  unfold bitmapBit bitmapClear
  by_cases word : q / 64 = prio.toNat / 64
  · have place : q % 64 < 64 := Nat.mod_lt _ (by decide)
    rw [word, Function.update_self, BitVec.getLsbD_and, BitVec.getLsbD_not, BitVec.getLsbD_shiftLeft, BitVec.getLsbD_one]
    by_cases here : q = prio.toNat
    · subst here
      simp [place]
    · have apart : q % 64 ≠ prio.toNat % 64 := fun equal => here (by omega)
      by_cases below : q % 64 < prio.toNat % 64
      · simp [here, below, place]
      · have later : q % 64 - prio.toNat % 64 ≠ 0 := by omega
        simp [here, later, place]
  · have here : q ≠ prio.toNat := fun equal => word (by rw [equal])
    rw [Function.update_of_ne word]
    simp [here]

theorem ctz_spec {word : BitVec 64} (some : word ≠ 0) :
    ctz word < 64 ∧ word.getLsbD (ctz word) = true ∧ ∀ i < ctz word, word.getLsbD i = false := by
  -- Some bit is set, so the search ends at the first one.
  have found : ∃ i ∈ List.range 64, word.getLsbD i = true := by
    by_contra none
    apply some
    apply BitVec.eq_of_getLsbD_eq
    intro i small
    have clear : word.getLsbD i ≠ true := fun set => none ⟨i, List.mem_range.mpr small, set⟩
    simpa using clear
  have inside : ctz word < (List.range 64).length := List.findIdx_lt_length.mpr found
  refine ⟨by simpa using inside, ?_, fun i below => ?_⟩
  · have set := List.findIdx_getElem (p := fun i => word.getLsbD i) (w := inside)
    have place : (List.range 64).get ⟨ctz word, inside⟩ = ctz word := by simp
    rw [← place]
    exact set
  · have searched : i < (List.range 64).findIdx fun i => word.getLsbD i := below
    have clear := List.not_of_lt_findIdx searched
    simpa using clear

theorem bitmapFindFirst_some {prio : Nat} (found : bitmapFindFirst bitmap = some prio) :
    prio < 256 ∧ bitmapBit bitmap prio = true ∧ ∀ q < prio, bitmapBit bitmap q = false := by
  obtain ⟨before, w, after, split, here, clear⟩ := List.findSome?_eq_some_iff.mp found
  -- The word that ends the search has exactly the words below it before it.
  have small : w < 4 := by
    have inside : w ∈ List.range 4 := by rw [split]; simp
    simpa using inside
  have earlier : ∀ v < w, bitmap v = 0 := by
    intro v below
    have inside : v ∈ before := by
      have sorted : (before ++ w :: after).Pairwise (· < ·) := by rw [← split]; exact List.pairwise_lt_range
      have member : v ∈ before ++ w :: after := by rw [← split]; simp; omega
      rcases List.mem_append.mp member with first | later
      · exact first
      · rcases List.mem_cons.mp later with rfl | later
        · omega
        · have above := (List.pairwise_cons.mp (List.pairwise_append.mp sorted).2.1).1 v later
          omega
    have none := clear v inside
    simpa using none
  have set : bitmap w ≠ 0 := by
    intro zero
    simp [zero] at here
  have value : prio = w * 64 + ctz (bitmap w) := by
    rw [if_pos set] at here
    exact (Option.some.inj here).symm
  obtain ⟨narrow, bit, lower⟩ := ctz_spec set
  have word : prio / 64 = w := by omega
  have place : prio % 64 = ctz (bitmap w) := by omega
  refine ⟨by omega, by rw [bitmapBit, word, place]; exact bit, fun q below => ?_⟩
  -- A more urgent priority is in an empty word, or below the first bit of this one.
  by_cases same : q / 64 = w
  · rw [bitmapBit, same]
    exact lower _ (by omega)
  · have empty : bitmap (q / 64) = 0 := earlier _ (by omega)
    simp [bitmapBit, empty]

theorem bitmapFindFirst_none (missing : bitmapFindFirst bitmap = none) {q : Nat} (small : q < 256) :
    bitmapBit bitmap q = false := by
  have word : q / 64 ∈ List.range 4 := by simp; omega
  have zero := List.findSome?_eq_none_iff.mp missing (q / 64) word
  have empty : bitmap (q / 64) = 0 := by simpa using zero
  simp [bitmapBit, empty]

end

/--
The run queues hold exactly the ready tasks, apart from those of `out`, which no queue holds.

Each ready task is once in the queue of its effective priority, and the bits tell which queues are not empty.
-/
structure Queues (out : Set Nat) (s : State) : Prop where
  bit : ∀ p : UInt8, bitmapBit s.readyBitmap p.toNat = true ↔ s.runQueue p ≠ []
  once : ∀ p, (s.runQueue p).Nodup
  ready : ∀ t < s.taskCount, t ∉ out → (s.tcb t).state = .ready → t ∈ s.runQueue (s.effPrio t)
  member : ∀ p, ∀ t ∈ s.runQueue p, t < s.taskCount ∧ t ∉ out ∧ (s.tcb t).state = .ready ∧ s.effPrio t = p

section

variable {s : State} {out : Set Nat} {t : Nat} {p : UInt8}

@[simp] theorem setTcb_self (change : Tcb → Tcb) : (s.setTcb t change).tcb t = change (s.tcb t) := by
  simp [State.setTcb]

@[simp] theorem setTcb_other {other : Nat} (change : Tcb → Tcb) (apart : other ≠ t) :
    (s.setTcb t change).tcb other = s.tcb other := by
  simp [State.setTcb, apart]

@[simp] theorem setTcb_taskCount (change : Tcb → Tcb) : (s.setTcb t change).taskCount = s.taskCount := rfl

@[simp] theorem setTcb_current (change : Tcb → Tcb) : (s.setTcb t change).current = s.current := rfl

@[simp] theorem setTcb_runQueue (change : Tcb → Tcb) : (s.setTcb t change).runQueue = s.runQueue := rfl

theorem setTcb_state {f : Tcb → Tcb} (same : (f (s.tcb t)).state = (s.tcb t).state) (other : Nat) :
    ((s.setTcb t f).tcb other).state = (s.tcb other).state := by
  by_cases own : other = t
  · subst own
    simpa using same
  · simp [own]

theorem setTcb_effPrio {f : Tcb → Tcb} (same : effPrioOf (f (s.tcb t)) = effPrioOf (s.tcb t))
    (other : Nat) : (s.setTcb t f).effPrio other = s.effPrio other := by
  by_cases own : other = t
  · subst own
    simpa [State.effPrio] using same
  · simp [State.effPrio, own]

theorem Queues.change (queues : Queues out s) (held : t ∈ out) (change : Tcb → Tcb) :
    Queues out (s.setTcb t change) := by
  refine ⟨queues.bit, queues.once, fun other inside free ready => ?_, fun p other linked => ?_⟩
  · have apart : other ≠ t := fun same => free (same ▸ held)
    have same : (s.setTcb t change).effPrio other = s.effPrio other := by
      simp [State.effPrio, apart]
    rw [same]
    exact queues.ready other inside free (by simpa [apart] using ready)
  · obtain ⟨inside, free, ready, prio⟩ := queues.member p other linked
    have apart : other ≠ t := fun same => free (same ▸ held)
    exact ⟨inside, free, by simpa [apart] using ready, by simpa [State.effPrio, apart] using prio⟩

theorem Queues.keep (queues : Queues out s) {f : Tcb → Tcb}
    (state : (f (s.tcb t)).state = (s.tcb t).state)
    (prio : effPrioOf (f (s.tcb t)) = effPrioOf (s.tcb t)) : Queues out (s.setTcb t f) := by
  refine ⟨queues.bit, queues.once, fun other inside free ready => ?_, fun p other linked => ?_⟩
  · rw [setTcb_effPrio prio]
    exact queues.ready other inside free (by rw [← setTcb_state state]; exact ready)
  · rw [setTcb_state state, setTcb_effPrio prio]
    exact queues.member p other linked

theorem Queues.hold (queues : Queues out s) (idle : (s.tcb t).state ≠ .ready) : Queues (insert t out) s := by
  refine ⟨queues.bit, queues.once, fun other inside free => ?_, fun p other linked => ?_⟩
  · exact queues.ready other inside fun held => free (Set.mem_insert_of_mem _ held)
  · obtain ⟨inside, free, ready, prio⟩ := queues.member p other linked
    have apart : other ≠ t := fun same => idle (same ▸ ready)
    exact ⟨inside, by simp [apart, free], ready, prio⟩

theorem Queues.free (queues : Queues (insert t out) s) (idle : (s.tcb t).state ≠ .ready) : Queues out s := by
  refine ⟨queues.bit, queues.once, fun other inside free ready => ?_, fun p other linked => ?_⟩
  · have apart : other ≠ t := fun same => idle (same ▸ ready)
    exact queues.ready other inside (by simp [apart, free]) ready
  · obtain ⟨inside, free, ready, prio⟩ := queues.member p other linked
    exact ⟨inside, fun held => free (Set.mem_insert_of_mem _ held), ready, prio⟩

theorem Queues.push (queues : Queues (insert t out) s) (free : t ∉ out) (inside : t < s.taskCount)
    (ready : (s.tcb t).state = .ready) : Queues out (rqPush s t) := by
  have outside : ∀ p, t ∉ s.runQueue p := fun p linked => (queues.member p t linked).2.1 (Set.mem_insert t out)
  refine ⟨fun p => ?_, fun p => ?_, fun other small free' ready' => ?_, fun p other linked => ?_⟩
  · simp only [rqPush, bitmapBit_set]
    by_cases here : p = s.effPrio t
    · simp [here]
    · have apart : p.toNat ≠ (s.effPrio t).toNat := fun same => here (UInt8.toNat_inj.mp same)
      simpa [here, apart] using queues.bit p
  · by_cases here : p = s.effPrio t
    · subst here
      simpa [rqPush, List.nodup_append, queues.once] using fun other linked same => outside _ (same ▸ linked)
    · simpa [rqPush, here] using queues.once p
  · show other ∈ Function.update s.runQueue (s.effPrio t) (s.runQueue (s.effPrio t) ++ [t]) (s.effPrio other)
    by_cases same : other = t
    · simp [same]
    · have linked := queues.ready other small (by simp [same, free']) ready'
      by_cases here : s.effPrio other = s.effPrio t
      · rw [here] at linked ⊢
        simp [linked]
      · simpa [here] using linked
  · have before : other ∈ s.runQueue p ∨ (p = s.effPrio t ∧ other = t) := by
      by_cases here : p = s.effPrio t
      · simpa [rqPush, here] using linked
      · exact .inl (by simpa [rqPush, here] using linked)
    rcases before with before | ⟨rfl, rfl⟩
    · obtain ⟨small, free', ready', prio⟩ := queues.member p other before
      exact ⟨small, fun held => free' (Set.mem_insert_of_mem _ held), ready', prio⟩
    · exact ⟨inside, free, ready, rfl⟩

theorem Queues.drop (queues : Queues out s) {rest : List Nat} (inner : rest.Sublist (s.runQueue p))
    (gone : ∀ other, other ∈ rest ↔ other ∈ s.runQueue p ∧ other ≠ t) (own : t ∈ s.runQueue p) :
    Queues (insert t out) (setQueue s p rest) := by
  refine ⟨fun q => ?_, fun q => ?_, fun other small free ready => ?_, fun q other linked => ?_⟩
  · by_cases here : q = p
    · subst here
      by_cases empty : rest = []
      · simp [setQueue, empty, bitmapBit_clear]
      · have some : s.runQueue q ≠ [] := List.ne_nil_of_mem own
        simpa [setQueue, empty, some] using (queues.bit q).mpr some
    · have apart : q.toNat ≠ p.toNat := fun same => here (UInt8.toNat_inj.mp same)
      by_cases empty : rest = []
      · simpa [setQueue, empty, bitmapBit_clear, here, apart] using queues.bit q
      · simpa [setQueue, empty, here] using queues.bit q
  · by_cases here : q = p
    · subst here
      simpa [setQueue] using (queues.once q).sublist inner
    · simpa [setQueue, here] using queues.once q
  · have apart : other ≠ t := fun same => free (same ▸ Set.mem_insert t out)
    have linked := queues.ready other small (fun held => free (Set.mem_insert_of_mem _ held)) ready
    show other ∈ Function.update s.runQueue p rest (s.effPrio other)
    by_cases here : s.effPrio other = p
    · rw [here] at linked ⊢
      simpa using (gone other).mpr ⟨linked, apart⟩
    · simpa [here] using linked
  · have before : other ∈ s.runQueue q ∧ (q = p → other ≠ t) := by
      by_cases here : q = p
      · subst here
        simpa [setQueue, gone other] using linked
      · exact ⟨by simpa [setQueue, here] using linked, fun same => absurd same here⟩
    obtain ⟨small, free, ready, prio⟩ := queues.member q other before.1
    have apart : other ≠ t := by
      intro same
      subst same
      exact before.2 (prio.symm.trans (queues.member p other own).2.2.2) rfl
    exact ⟨small, by simp [apart, free], ready, prio⟩

theorem Queues.pop (queues : Queues out s) {rest : List Nat} (first : s.runQueue p = t :: rest) :
    Queues (insert t out) (setQueue s p rest) := by
  have once := queues.once p
  rw [first] at once
  have absent : t ∉ rest := (List.nodup_cons.mp once).1
  apply queues.drop
  · rw [first]
    exact List.sublist_cons_self t rest
  · intro other
    rw [first]
    constructor
    · exact fun linked => ⟨List.mem_cons_of_mem _ linked, fun same => absent (same ▸ linked)⟩
    · rintro ⟨linked, apart⟩
      exact (List.mem_cons.mp linked).resolve_left apart
  · simp [first]

theorem Queues.remove (queues : Queues out s) (t : Nat) :
    Queues (insert t out) (rqRemove s t (s.effPrio t)) := by
  unfold rqRemove
  split
  · rename_i linked
    apply queues.drop List.erase_sublist _ linked
    intro other
    rw [(queues.once _).mem_erase_iff]
    exact and_comm
  · rename_i absent
    -- A linked task is in the queue of its own priority, so this one is in none.
    refine ⟨queues.bit, queues.once, fun other inside free => ?_, fun p other linked => ?_⟩
    · exact queues.ready other inside fun held => free (Set.mem_insert_of_mem _ held)
    · obtain ⟨inside, free, ready, prio⟩ := queues.member p other linked
      have apart : other ≠ t := by
        intro same
        subst same
        exact absent (prio ▸ linked)
      exact ⟨inside, by simp [apart, free], ready, prio⟩

end

end Enlil.Sched
