import Enlil.Futex.Table

/-! Waking, moving and leaving keep each waiter in the queue of its word, and take waiters in the order they came. -/

namespace Enlil.Futex

open Sched (schedMaxTasks)

section

variable {t t' : Table} {lists : Bucket → List Task} {b : Bucket} {w : Task} {before after : List Task} {key : Key}

theorem walk_eq {next : Task → Option Task} {start : Option Task} {nodes : List Task} {fuel : Nat}
    (path : Path next start nodes) (enough : nodes.length ≤ fuel) : walk next fuel start = nodes := by
  induction nodes generalizing start fuel with
  | nil =>
    rw [show start = none from path]
    cases fuel with
    | zero => rfl
    | succ fuel => rfl
  | cons node rest ih =>
    obtain ⟨first, tail⟩ := path
    obtain ⟨fuel, rfl⟩ : ∃ less, fuel = less + 1 := ⟨fuel - 1, by simp at enough; omega⟩
    rw [first, walk, ih tail (by simpa using enough)]

theorem length_le {nodes : List Task} (nodup : nodes.Nodup) : nodes.length ≤ schedMaxTasks := by
  have bound := nodup.length_le_card
  rwa [Fintype.card_fin] at bound

theorem Holds.bucketList_eq (holds : Holds t lists) : t.bucketList = lists := by
  funext b
  exact walk_eq (holds.linked b).path (length_le (holds.linked b).nodup)

theorem Holds.sound (holds : Holds t lists) : Sound t := by
  rw [Sound, holds.bucketList_eq]
  exact holds

theorem Holds.waitersOf_eq (holds : Holds t lists) (key : Key) :
    t.waitersOf key = (lists (futexHash key)).filter fun w => (t.waiters w).key = key := by
  rw [Table.waitersOf, holds.bucketList_eq]

@[simp] theorem setLinks_links {next : Task → Option Task} : (t.setLinks next).links = next := rfl

@[simp] theorem setLinks_head {next : Task → Option Task} : (t.setLinks next).head = t.head := rfl

@[simp] theorem setWaiter_self {change : Waiter → Waiter} : (t.setWaiter w change).waiters w = change (t.waiters w) := by
  simp [Table.setWaiter]

@[simp] theorem setWaiter_other {change : Waiter → Waiter} {other : Task} (apart : other ≠ w) :
    (t.setWaiter w change).waiters other = t.waiters other := by
  simp [Table.setWaiter, apart]

theorem setWaiter_links {change : Waiter → Waiter} (same : ∀ waiter, (change waiter).next = waiter.next) :
    (t.setWaiter w change).links = t.links := by
  funext other
  by_cases own : other = w
  · subst own
    simp [Table.links, same]
  · simp [Table.links, own]

theorem unlink_links {prev : Option Task} : (t.unlink b prev w).links = unlinkNext t.links prev w := rfl

theorem unlinkNext_other {next : Task → Option Task} {prev : Option Task} {other : Task} (apart : other ≠ w)
    (notPrev : some other ≠ prev) : unlinkNext next prev w other = next other := by
  unfold unlinkNext
  cases prev with
  | none => exact Function.update_of_ne apart _ _
  | some prev =>
    have different : other ≠ prev := fun same => notPrev (by rw [same])
    show Function.update (Function.update next prev (next w)) w none other = next other
    rw [Function.update_of_ne apart, Function.update_of_ne different]

theorem Holds.apart (holds : Holds t lists) {a b : Bucket} (first : w ∈ lists a) (second : w ∈ lists b) : a = b := by
  rw [← ((holds.member a w).mp first).2, ((holds.member b w).mp second).2]

theorem Holds.unlink (holds : Holds t lists) (place : lists b = before ++ w :: after) (other : Bucket) :
    Linked (t.unlink b before.getLast? w).links ((t.unlink b before.getLast? w).head other)
      ((t.unlink b before.getLast? w).tail other) (Function.update lists b (before ++ after) other) := by
  by_cases own : other = b
  · subst own
    have linked := holds.linked other
    rw [place] at linked
    have rest := linked.unlink
    rw [Function.update_self, unlink_links]
    simpa [Table.unlink] using rest
  · have linked := holds.linked other
    rw [Function.update_of_ne own]
    have kept : Linked (t.unlink b before.getLast? w).links (t.head other) (t.tail other) (lists other) := by
      apply linked.congr
      intro node inside
      -- A node of another queue is neither the waiter nor the one before it.
      have notWaiter : node ≠ w := by
        rintro rfl
        exact own (holds.apart inside (by rw [place]; simp))
      have notPrev : some node ≠ before.getLast? := by
        intro same
        have member : node ∈ before := List.mem_of_getLast? same.symm
        exact own (holds.apart inside (by rw [place]; simp [member]))
      exact unlinkNext_other notWaiter notPrev
    simpa [Table.unlink, own] using kept

@[simp] theorem unlink_waiters {prev : Option Task} {other : Task} :
    (t.unlink b prev w).waiters other = { t.waiters other with next := unlinkNext t.links prev w other } := rfl

theorem Holds.leave (holds : Holds t lists) (place : lists b = before ++ w :: after) {change : Waiter → Waiter}
    (links : ∀ waiter, (change waiter).next = waiter.next) (gone : ∀ waiter, (change waiter).queued = false) :
    Holds ((t.unlink b before.getLast? w).setWaiter w change) (Function.update lists b (before ++ after)) := by
  have nodup := (holds.linked b).nodup
  rw [place, List.nodup_middle, List.nodup_cons] at nodup
  have inside : w ∈ lists b := by rw [place]; simp
  refine ⟨fun other => ?_, fun other node => ?_, fun node queued => ?_⟩
  · rw [setWaiter_links links]
    exact holds.unlink place other
  · by_cases own : node = w
    · subst own
      rw [setWaiter_self, gone]
      constructor
      · intro member
        by_cases same : other = b
        · subst same
          rw [Function.update_self] at member
          exact absurd member nodup.1
        · rw [Function.update_of_ne same] at member
          exact absurd (holds.apart member inside) same
      · rintro ⟨never, -⟩
        cases never
    · rw [setWaiter_other own, unlink_waiters]
      by_cases same : other = b
      · subst same
        rw [Function.update_self, ← holds.member other node, place]
        simp [own]
      · rw [Function.update_of_ne same]
        exact holds.member other node
  · by_cases own : node = w
    · subst own
      rw [setWaiter_self, gone] at queued
      cases queued
    · rw [setWaiter_other own] at queued ⊢
      exact holds.own node queued

theorem link_linked (linked : ∀ b, Linked t.links (t.head b) (t.tail b) (lists b))
    (apart : ∀ a b node, node ∈ lists a → node ∈ lists b → a = b) (fresh : ∀ a, w ∉ lists a) (other : Bucket) :
    Linked (t.link b w).links ((t.link b w).head other) ((t.link b w).tail other)
      (Function.update lists b (lists b ++ [w]) other) := by
  have joined := (linked b).append (fresh b)
  have start := (linked b).path.start_eq
  -- With no head there is no tail, and the two ways to link a waiter are one.
  have next : (t.link b w).links = appendNext t.links (t.tail b) w := by
    unfold Table.link
    cases head : t.head b with
    | none =>
      have empty : lists b = [] := by
        rw [head] at start
        exact List.head?_eq_none_iff.mp start.symm
      have tail : t.tail b = none := by
        rw [(linked b).last, empty]
        rfl
      rw [tail]
      rfl
    | some first => rfl
  by_cases own : other = b
  · subst own
    rw [Function.update_self, next]
    unfold Table.link
    cases head : t.head other with
    | none => simpa [head] using joined
    | some first => simpa [head] using joined
  · rw [Function.update_of_ne own]
    have kept : Linked (t.link b w).links (t.head other) (t.tail other) (lists other) := by
      apply (linked other).congr
      intro node inside
      have notWaiter : node ≠ w := by
        rintro rfl
        exact fresh other inside
      rw [next]
      cases tail : t.tail b with
      | none => exact Function.update_of_ne notWaiter none t.links
      | some last =>
        have member : last ∈ lists b := by
          have final := (linked b).last
          rw [tail] at final
          exact List.mem_of_getLast? final.symm
        have notLast : node ≠ last := by
          rintro rfl
          exact own (apart other b node inside member)
        show Function.update (Function.update t.links w none) last (some w) node = t.links node
        rw [Function.update_of_ne notLast, Function.update_of_ne notWaiter]
    unfold Table.link at kept ⊢
    cases head : t.head b with
    | none => simpa [head, own] using kept
    | some first => simpa [head, own] using kept

theorem link_waiters (t : Table) (b : Bucket) (w other : Task) :
    ∃ next, (t.link b w).waiters other = { t.waiters other with next := next } := by
  unfold Table.link
  cases t.head b with
  | none => exact ⟨_, rfl⟩
  | some first => exact ⟨_, rfl⟩

theorem Holds.move (holds : Holds t lists) (place : lists b = before ++ w :: after) (uaddr2 : UInt64) :
    Holds (((t.unlink b before.getLast? w).setWaiter w fun waiter =>
        { waiter with key := { waiter.key with uaddr := uaddr2 } }).link
          (futexHash { (t.waiters w).key with uaddr := uaddr2 }) w)
      (Function.update (Function.update lists b (before ++ after)) (futexHash { (t.waiters w).key with uaddr := uaddr2 })
        (Function.update lists b (before ++ after) (futexHash { (t.waiters w).key with uaddr := uaddr2 }) ++ [w])) := by
  have nodup := (holds.linked b).nodup
  rw [place, List.nodup_middle, List.nodup_cons] at nodup
  have inside : w ∈ lists b := by rw [place]; simp
  have queued := ((holds.member b w).mp inside).1
  generalize goal : futexHash { (t.waiters w).key with uaddr := uaddr2 } = dst
  -- The queues without the waiter.
  have old : ∀ a node, node ∈ Function.update lists b (before ++ after) a → node ∈ lists a ∧ node ≠ w := by
    intro a node member
    by_cases same : a = b
    · subst same
      rw [Function.update_self] at member
      refine ⟨?_, fun equal => nodup.1 (equal ▸ member)⟩
      rw [place]
      rcases List.mem_append.mp member with first | second
      · simp [first]
      · simp [second]
    · rw [Function.update_of_ne same] at member
      refine ⟨member, ?_⟩
      rintro rfl
      exact same (holds.apart member inside)
  refine ⟨fun other => ?_, fun other node => ?_, fun node still => ?_⟩
  · apply link_linked
    · intro a
      rw [setWaiter_links]
      · exact holds.unlink place a
      · intro waiter
        rfl
    · intro a a' node first second
      exact holds.apart (old a node first).1 (old a' node second).1
    · intro a member
      exact (old a w member).2 rfl
  · obtain ⟨next, record⟩ := link_waiters ((t.unlink b before.getLast? w).setWaiter w fun waiter =>
        { waiter with key := { waiter.key with uaddr := uaddr2 } }) dst w node
    rw [record]
    by_cases own : node = w
    · subst own
      rw [setWaiter_self]
      dsimp only [unlink_waiters]
      rw [goal, queued]
      constructor
      · intro member
        by_cases same : other = dst
        · exact ⟨rfl, same.symm⟩
        · rw [Function.update_of_ne same] at member
          exact absurd rfl (old other node member).2
      · rintro ⟨-, rfl⟩
        rw [Function.update_self]
        simp
    · rw [setWaiter_other own, unlink_waiters]
      dsimp only
      rw [← holds.member other node]
      have without : node ∈ Function.update lists b (before ++ after) other ↔ node ∈ lists other := by
        by_cases same : other = b
        · subst same
          rw [Function.update_self, place]
          simp [own]
        · rw [Function.update_of_ne same]
      by_cases same : other = dst
      · subst same
        rw [Function.update_self, List.mem_append, List.mem_singleton, without]
        simp [own]
      · rw [Function.update_of_ne same, without]
  · obtain ⟨next, record⟩ := link_waiters ((t.unlink b before.getLast? w).setWaiter w fun waiter =>
        { waiter with key := { waiter.key with uaddr := uaddr2 } }) dst w node
    rw [record] at still ⊢
    by_cases own : node = w
    · subst own
      rw [setWaiter_self]
      exact holds.own node queued
    · rw [setWaiter_other own] at still ⊢
      exact holds.own node still

theorem Holds.join (holds : Holds t lists) (idle : (t.waiters w).queued = false) {change : Waiter → Waiter}
    (links : ∀ waiter, (change waiter).next = waiter.next) (named : ∀ waiter, (change waiter).key = key)
    (task : ∀ waiter, (change waiter).task = some w) :
    Holds (futexBucketAppend (futexHash key) w (t.setWaiter w change))
      (Function.update lists (futexHash key) (lists (futexHash key) ++ [w])) := by
  have fresh : ∀ a, w ∉ lists a := by
    intro a member
    rw [holds.member, idle] at member
    cases member.1
  refine ⟨fun other => ?_, fun other node => ?_, fun node still => ?_⟩
  · have linked : ∀ a, Linked (t.setWaiter w change).links ((t.setWaiter w change).head a)
        ((t.setWaiter w change).tail a) (lists a) := by
      intro a
      rw [setWaiter_links links]
      exact holds.linked a
    have joined := link_linked (b := futexHash key) linked (fun _ _ _ first second => holds.apart first second) fresh other
    rw [futexBucketAppend, setWaiter_links]
    · exact joined
    · intro waiter
      rfl
  · obtain ⟨next, record⟩ := link_waiters (t.setWaiter w change) (futexHash key) w node
    rw [futexBucketAppend]
    by_cases own : node = w
    · subst own
      rw [setWaiter_self, record, setWaiter_self]
      dsimp only
      rw [named]
      constructor
      · intro member
        by_cases same : other = futexHash key
        · exact ⟨rfl, same.symm⟩
        · rw [Function.update_of_ne same] at member
          exact absurd member (fresh other)
      · rintro ⟨-, rfl⟩
        rw [Function.update_self]
        simp
    · rw [setWaiter_other own, record, setWaiter_other own]
      dsimp only
      rw [← holds.member other node]
      by_cases same : other = futexHash key
      · subst same
        rw [Function.update_self]
        simp [own]
      · rw [Function.update_of_ne same]
  · obtain ⟨next, record⟩ := link_waiters (t.setWaiter w change) (futexHash key) w node
    rw [futexBucketAppend] at still ⊢
    by_cases own : node = w
    · subst own
      rw [setWaiter_self, record, setWaiter_self]
      exact task _
    · rw [setWaiter_other own, record, setWaiter_other own] at still ⊢
      exact holds.own node still

theorem Holds.mem_waitersOf (holds : Holds t lists) : w ∈ t.waitersOf key ↔
    (t.waiters w).queued = true ∧ (t.waiters w).key = key := by
  rw [holds.waitersOf_eq, List.mem_filter, decide_eq_true_eq, holds.member]
  constructor
  · rintro ⟨⟨queued, -⟩, named⟩
    exact ⟨queued, named⟩
  · rintro ⟨queued, named⟩
    exact ⟨⟨queued, by rw [named]⟩, named⟩

theorem Holds.waitersOf_leave (holds : Holds t lists) (place : lists b = before ++ w :: after) {change : Waiter → Waiter}
    (links : ∀ waiter, (change waiter).next = waiter.next) (gone : ∀ waiter, (change waiter).queued = false)
    (named : ∀ waiter, (change waiter).key = waiter.key) {other : Key} (apart : other ≠ (t.waiters w).key) :
    ((t.unlink b before.getLast? w).setWaiter w change).waitersOf other = t.waitersOf other := by
  have keys : ∀ node, (((t.unlink b before.getLast? w).setWaiter w change).waiters node).key = (t.waiters node).key := by
    intro node
    by_cases own : node = w
    · subst own
      rw [setWaiter_self, named]
      rfl
    · rw [setWaiter_other own]
      rfl
  rw [(holds.leave place links gone).waitersOf_eq, holds.waitersOf_eq]
  simp only [keys]
  by_cases same : futexHash other = b
  · rw [same, Function.update_self, place, List.filter_append, List.filter_append, List.filter_cons_of_neg]
    simpa using apart.symm
  · rw [Function.update_of_ne same]

theorem move_key {uaddr2 : UInt64} {dst : Bucket} {prev : Option Task} (node : Task) :
    ((((t.unlink b prev w).setWaiter w fun waiter =>
        { waiter with key := { waiter.key with uaddr := uaddr2 } }).link dst w).waiters node).key =
      if node = w then { (t.waiters w).key with uaddr := uaddr2 } else (t.waiters node).key := by
  obtain ⟨next, record⟩ := link_waiters ((t.unlink b prev w).setWaiter w fun waiter =>
    { waiter with key := { waiter.key with uaddr := uaddr2 } }) dst w node
  rw [record]
  by_cases own : node = w
  · subst own
    rw [setWaiter_self, if_pos rfl]
    rfl
  · rw [setWaiter_other own, if_neg own]
    rfl

end

end Enlil.Futex
